import SecureCnet.Link.Receiver

/-!
# The reception of a datagram

A datagram of the peer gives the receiving half nothing or exactly one frame of the
peer, the one it holds when opened with the session's key.
-/

namespace SecureCnet

namespace Party

/-- The first frame of a datagram that carries messages. -/
def frameIn (C : Crypto) (datagram : Bytes) (p : Party) : Option MsgView :=
  match parsePacket datagram with
  | .error _ => none
  | .ok packet =>
    if packet.h.kind = PacketKind.message.code then
      match p.openPacket C packet with
      | .error _ => none
      | .ok plaintext =>
        match readMessage plaintext with
        | .error _ => none
        | .ok (msg, _) => some msg
    else none

/-- A party that has opened a packet, but not yet looked at its frames. -/
structure Opened (p q : Party) : Prop where
  side : q.side = p.side
  otherMemory : q.otherMemory = p.otherMemory
  net : q.net = p.net
  inbox : p.session.SameInbox q.session
  inbound : q.session.inbound = p.session.inbound
  closed : p.session.state = .closed → q.session.state = .closed

variable {C : Crypto} {p q p' : Party} {now : UInt64} {Ψ : MsgView → Prop} {packet : PacketView}
  {datagram : Bytes}

theorem Opened.refl (p : Party) : p.Opened p := ⟨rfl, rfl, rfl, .refl _, rfl, id⟩

theorem Opened.trans (h : p.Opened q) (h' : q.Opened p') : p.Opened p' :=
  ⟨h'.side.trans h.side, h'.otherMemory.trans h.otherMemory, h'.net.trans h.net,
    h.inbox.trans h'.inbox, h'.inbound.trans h.inbound, fun hc => h'.closed (h.closed hc)⟩

theorem Opened.silent (h : p.Opened q) : p.Silent q where
  side := h.side
  inbound := h.inbound
  inbox := Or.inr h.inbox
  dead := by
    rintro ⟨⟨config, hs⟩, hc, ho⟩
    exact ⟨⟨config, h.side.trans hs⟩, h.closed hc, by rw [h.net]; exact ho⟩

theorem opened_mapSession {f : Session → Session} (hbox : p.session.SameInbox (f p.session))
    (hin : (f p.session).inbound = p.session.inbound)
    (hclosed : p.session.state = .closed → (f p.session).state = .closed) :
    p.Opened (p.mapSession f) :=
  ⟨rfl, rfl, rfl, hbox, hin, hclosed⟩

theorem authenticate_opened (now : UInt64) (packet : PacketView) (p : Party) :
    p.Opened (p.authenticate C now packet).2 := by
  have hset : ∀ w, p.Opened (p.mapSession fun s => { s with packetWindow := w }) :=
    fun w => opened_mapSession (Session.sameInbox_of_eq rfl rfl rfl rfl rfl rfl) rfl id
  unfold authenticate
  cases p.openPacket C packet with
  | error e => exact .refl p
  | ok plaintext =>
    dsimp only
    split_ifs
    · exact .refl p
    · exact hset _
    · exact ⟨rfl, rfl, rfl, Session.sameInbox_of_eq rfl rfl rfl rfl rfl rfl, rfl, id⟩

theorem showPacket_opened (packet : PacketView) (plaintext : Bytes) (p : Party) :
    p.Opened (p.showPacket packet plaintext) := by
  have hlog : ∀ q : Party, q.Opened (q.log (.onPacket
      ⟨{ packet.h with payloadLen := UInt32.ofNat plaintext.length }, plaintext⟩)) := fun q =>
    opened_mapSession (Session.sameInbox_log rfl _)
      (Session.inbound_append (List.forall_mem_singleton.mpr rfl) rfl) id
  unfold showPacket
  dsimp only
  split_ifs with h
  · refine Opened.trans (opened_mapSession (Session.sameInbox_transitionState _ _)
      (Session.inbound_transitionState _ _) fun hc => ?_) (hlog _)
    rw [h] at hc
    cases hc
  · exact hlog p

/-- Nothing is received, or one frame that `Ψ` allows. -/
def Receives (C : Crypto) (now : UInt64) (Ψ : MsgView → Prop) (p p' : Party) : Prop :=
  p.Silent p' ∨ ∃ q msg, Ψ msg ∧ p.Opened q ∧ (q.dispatchMessageFrame C now msg).Silent p'

theorem Receives.silent (h : Receives C now Ψ p q) (hs : q.Silent p') : Receives C now Ψ p p' := by
  rcases h with h | ⟨r, msg, hΨ, ho, h⟩
  · exact Or.inl (h.trans hs)
  · exact Or.inr ⟨r, msg, hΨ, ho, h.trans hs⟩

/-- The plaintext of a message packet is one frame. -/
def Framed (C : Crypto) (Ψ : MsgView → Prop) (packet : PacketView) (p : Party) : Prop :=
  ∀ pt, p.openPacket C packet = .ok pt → packet.h.kind = PacketKind.message.code →
    ∃ msg : MsgView, pt = msg.encode ∧ msg.data.length < 2 ^ 16 ∧ Ψ msg

theorem Framed.dispatch {pt : Bytes} (h : Framed C Ψ packet p)
    (hopen : p.openPacket C packet = .ok pt) (hk : PacketKind.ofCode packet.h.kind = some .message)
    (ho : p.Opened q) : Receives C now Ψ p (q.dispatchMessagePayload C now pt) := by
  obtain ⟨msg, rfl, hlen, hΨ⟩ := h pt hopen (PacketKind.ofCode_eq_some.mp hk)
  rw [dispatchMessagePayload_encode hlen]
  exact Or.inr ⟨q, msg, hΨ, ho, .refl _⟩

theorem handleEstablishedPacket_receives (h : Framed C Ψ packet p)
    (hside : ∃ config, p.side = .client config) :
    Receives C now Ψ p (p.handleEstablishedPacket C now packet).2 := by
  unfold handleEstablishedPacket
  split_ifs
  · exact Or.inl (.refl p)
  · exact Or.inl (.refl p)
  · exact Or.inl (.refl p)
  have hauth := authenticate_opened (C := C) now packet p
  cases ha : p.authenticate C now packet with
  | mk rc q =>
    rw [ha] at hauth
    cases rc with
    | error e => exact Or.inl hauth.silent
    | ok pt =>
      dsimp only
      cases hk : PacketKind.ofCode packet.h.kind with
      | none => exact Or.inl hauth.silent
      | some kind =>
        cases kind with
        | raw => exact Or.inl hauth.silent
        | handshake => exact Or.inl hauth.silent
        | keepalive => exact Or.inl hauth.silent
        | message => exact h.dispatch (authenticate_eq_ok ha) hk hauth
        | close =>
          dsimp only
          cases readCloseFrame pt with
          | error e => exact Or.inl hauth.silent
          | ok reason =>
            refine Or.inl (hauth.silent.trans (remoteClose_silent reason ?_))
            rw [hauth.side]
            exact hside

theorem handleSessionPacket_receives (h : Framed C Ψ packet p)
    (hside : ∃ config, p.side = .server config) :
    Receives C now Ψ p (p.handleSessionPacket C now packet).2 := by
  unfold handleSessionPacket
  split_ifs
  · exact Or.inl (.refl p)
  · exact Or.inl (.refl p)
  · exact Or.inl (.refl p)
  have hauth := authenticate_opened (C := C) now packet p
  cases ha : p.authenticate C now packet with
  | mk rc q =>
    rw [ha] at hauth
    cases rc with
    | error e => exact Or.inl hauth.silent
    | ok pt =>
      dsimp only
      have hest := hauth.trans (showPacket_opened packet pt q)
      generalize q.showPacket packet pt = r at hest
      cases hk : PacketKind.ofCode packet.h.kind with
      | none => exact Or.inl hest.silent
      | some kind =>
        cases kind with
        | raw => exact Or.inl hest.silent
        | handshake => exact Or.inl hest.silent
        | keepalive => exact Or.inl hest.silent
        | message => exact h.dispatch (authenticate_eq_ok ha) hk hest
        | close =>
          dsimp only
          cases readCloseFrame pt with
          | error e => exact Or.inl hest.silent
          | ok reason =>
            dsimp only
            split_ifs
            · refine Or.inl (hest.silent.trans (closeSession_silent now reason ?_))
              rw [hest.side]
              exact hside
            · exact Or.inl (hest.silent.trans (silent_transitionState fun _ => rfl))

theorem receivePacket_receives (h : Framed C Ψ packet p) :
    Receives C now Ψ p (p.receivePacket C now packet) := by
  have hend : ∀ {r q}, ChainOutcome C now r q → Receives C now Ψ p r.2 → Receives C now Ψ p q := by
    intro r q hchain hr
    cases hchain with
    | done | ignored => exact hr
    | violated => exact hr.silent (violation_silent now _ _)
  cases hs : p.side with
  | client config =>
    exact hend (receivePacket_client hs now packet) (handleEstablishedPacket_receives h ⟨config, hs⟩)
  | server config =>
    exact hend (receivePacket_server hs now packet) (handleSessionPacket_receives h ⟨config, hs⟩)

theorem dispatch_ackFrame_silent (now : UInt64) (ch : Channel) (id : UInt64) (p : Party) :
    p.Silent (p.dispatchMessageFrame C now (ackFrame ch id)) :=
  dispatchAck_silent now _ p

theorem receive_of_dead (h : p.Dead) (now : UInt64) (datagram : Bytes) :
    p.receive C now datagram = p := by
  obtain ⟨⟨config, hs⟩, -, ho⟩ := h
  unfold receive
  rw [hs]
  cases parsePacket datagram with
  | error e => simp [ho]
  | ok packet => simp [ho]

theorem receive_of_isHandshake (h : isHandshake datagram = true) (now : UInt64) (p : Party) :
    p.receive C now datagram = p := by
  unfold isHandshake at h
  unfold receive
  cases hp : parsePacket datagram with
  | error e =>
    rw [hp] at h
    cases h
  | ok packet =>
    rw [hp] at h
    have hk := of_decide_eq_true h
    cases p.side with
    | client config => simp [hk]
    | server config => simp [hk]

theorem receive_receives (hp : parsePacket datagram = .ok packet) (h : Framed C Ψ packet p) :
    Receives C now Ψ p (p.receive C now datagram) := by
  unfold receive
  rw [hp]
  cases p.side with
  | client config =>
    dsimp only
    split_ifs
    · exact Or.inl (.refl p)
    · exact receivePacket_receives h
  | server config =>
    dsimp only
    split_ifs
    · exact Or.inl (.refl p)
    · exact receivePacket_receives h

theorem frameIn_eq {msg : MsgView} (hp : parsePacket datagram = .ok packet)
    (hk : packet.h.kind = PacketKind.message.code) (ho : p.openPacket C packet = .ok msg.encode)
    (hlen : msg.data.length < 2 ^ 16) : p.frameIn C datagram = some msg := by
  have hread := readMessage_encode hlen []
  rw [List.append_nil] at hread
  unfold frameIn
  rw [hp]
  dsimp only
  rw [if_pos hk, ho]
  dsimp only
  rw [hread]

/-- A datagram of the peer is a handshake, or its message packets hold one of the peer's frames. -/
theorem framed_of_carries (hC : C.IdealAead) {Φ : MsgView → Prop} {cid : UInt64} {key : Block 32}
    (h : Carries C Φ cid key datagram) (hkey : p.session.keys.rx = key) :
    isHandshake datagram = true ∨ ∃ packet, parsePacket datagram = .ok packet ∧
      Framed C (fun msg => p.frameIn C datagram = some msg ∧ Φ msg) packet p := by
  rcases h with hs | ⟨kind, encrypted, payload, c, seq, k, hb, henc, hmsg⟩
  · exact Or.inl hs
  cases encrypted with
  | false =>
    refine Or.inr ⟨_, parsePacket_buildPacket_plain hb, ?_⟩
    intro pt _ hk
    have hkind : kind = .message := PacketKind.code_inj hk
    exact absurd (hmsg hkind).1 (by simp)
  | true =>
    obtain ⟨-, rfl⟩ := henc rfl
    obtain ⟨ct, hp, hlen, hopen⟩ := openPacket_of_buildPacket hC hb
    refine Or.inr ⟨_, hp, ?_⟩
    intro pt hpt hk
    have hkind : kind = .message := PacketKind.code_inj hk
    obtain ⟨-, msg, rfl, hΦ⟩ := hmsg hkind
    have hpay := hopen p hkey
    rw [hpay, Except.ok.injEq] at hpt
    have hshort : msg.data.length < 2 ^ 16 := by
      simp at hlen
      omega
    exact ⟨msg, hpt.symm, hshort, frameIn_eq hp hk hpay hshort, hΦ⟩

/-- A datagram of the peer brings one of the peer's frames, or nothing. -/
theorem receives_of_carries (hC : C.IdealAead) {Φ : MsgView → Prop} {cid : UInt64} {key : Block 32}
    (h : Carries C Φ cid key datagram) (hkey : ¬p.Dead → p.session.keys.rx = key) (now : UInt64) :
    Receives C now (fun msg => ¬p.Dead ∧ p.frameIn C datagram = some msg ∧ Φ msg) p
      (p.receive C now datagram) := by
  by_cases hd : p.Dead
  · rw [receive_of_dead hd]
    exact Or.inl (.refl p)
  rcases framed_of_carries hC h (hkey hd) with hs | ⟨packet, hp, hframed⟩
  · rw [receive_of_isHandshake hs]
    exact Or.inl (.refl p)
  · refine receive_receives hp ?_
    intro pt hpt hk
    obtain ⟨msg, hpt', hlen, hΦ⟩ := hframed pt hpt hk
    exact ⟨msg, hpt', hlen, hd, hΦ⟩

end Party

end SecureCnet
