import SecureCnet.Session.Continuity
import SecureCnet.Session.Silent

/-!
# Packets that reach the dispatcher

A message packet goes to `dispatch_message_payload` only after its payload was opened under
the receive key of the session and the replay window took its number. As the header is part
of what the cipher authenticates, and has one encoding only, an ideal cipher leaves nothing
of the datagram to an attacker. A packet that does not open changes nothing, except that the
connection may be closed.
-/

namespace SecureCnet

namespace Party

variable {C : Crypto} {p p' : Party} {packet : PacketView} {now : UInt64} {plaintext : Bytes}

/-- The packet opens under the receive key of the session, its number is not zero and was not
accepted before. -/
structure Accepts (C : Crypto) (p : Party) (packet : PacketView) (plaintext : Bytes) : Prop where
  opens : p.openPacket C packet = .ok plaintext
  number : packet.h.seq ≠ 0
  fresh : (p.session.packetWindow.accept packet.h.seq).1 = true

theorem Accepts.congr {q : Party} (h : p.Accepts C packet plaintext)
    (hs : q.session = p.session) : q.Accepts C packet plaintext := by
  refine ⟨?_, h.number, hs ▸ h.fresh⟩
  unfold openPacket
  rw [hs]
  exact h.opens

/-- Either the session takes a packet, or it is refused and the window has at most seen its
number again. -/
theorem authenticate_cases (now : UInt64) (packet : PacketView) (p : Party) :
    (∃ plaintext, p.Accepts C packet plaintext ∧ p.authenticate C now packet =
      (.ok plaintext, p.mapSession fun s => { s with
        packetWindow := (p.session.packetWindow.accept packet.h.seq).2, lastRecvMs := now })) ∨
    (∀ plaintext, ¬p.Accepts C packet plaintext) ∧ ∃ e w,
      (w = p.session.packetWindow ∨ (p.session.packetWindow.accept packet.h.seq).1 = false) ∧
      p.authenticate C now packet =
        (.error e, p.mapSession fun s => { s with packetWindow := w }) := by
  unfold authenticate
  cases ho : p.openPacket C packet with
  | error e =>
    refine Or.inr ⟨fun plaintext h => ?_, e, _, Or.inl rfl, rfl⟩
    cases ho.symm.trans h.opens
  | ok plaintext =>
    dsimp only
    split_ifs with hseq hfresh
    · exact Or.inr ⟨fun _ h => h.number hseq, _, _, Or.inl rfl, rfl⟩
    · rw [Bool.not_eq_true'] at hfresh
      refine Or.inr ⟨fun _ h => ?_, _, _, Or.inr hfresh, rfl⟩
      rw [h.fresh] at hfresh
      cases hfresh
    · exact Or.inl ⟨plaintext, ⟨ho, hseq, by simpa using hfresh⟩, rfl⟩

/-- A client without keys refuses every packet. -/
def keyless (p : Party) : Bool :=
  match p.side with
  | .client _ => p.session.keys.empty
  | .server _ => false

variable (C) in
/-- The plaintext with which a packet gets to `dispatch_message_payload`. -/
def dispatches (packet : PacketView) (p : Party) : Option Bytes :=
  if packet.h.kind = PacketKind.message.code ∧ packetHeaderEncrypted packet.h ∧ !p.keyless ∧
      packet.h.connId = p.session.connId then
    match p.openPacket C packet with
    | .error _ => none
    | .ok plaintext =>
      if packet.h.seq ≠ 0 ∧ (p.session.packetWindow.accept packet.h.seq).1 then some plaintext
      else none
  else none

theorem dispatches_eq_some : p.dispatches C packet = some plaintext ↔
    packet.h.kind = PacketKind.message.code ∧ packetHeaderEncrypted packet.h = true ∧
      p.keyless = false ∧ packet.h.connId = p.session.connId ∧ p.Accepts C packet plaintext := by
  constructor
  · intro h
    unfold dispatches at h
    rw [Option.ite_none_right_eq_some] at h
    obtain ⟨⟨hkind, henc, hkeys, hid⟩, h⟩ := h
    cases ho : p.openPacket C packet with
    | error e =>
      rw [ho] at h
      cases h
    | ok pt =>
      rw [ho] at h
      obtain ⟨hfresh, hpt⟩ := Option.ite_none_right_eq_some.mp h
      obtain rfl := Option.some.inj hpt
      exact ⟨hkind, henc, by simpa using hkeys, hid, ho, hfresh.1, hfresh.2⟩
  · rintro ⟨hkind, henc, hkeys, hid, hacc⟩
    unfold dispatches
    rw [if_pos ⟨hkind, henc, by simp [hkeys], hid⟩, hacc.opens]
    exact if_pos ⟨hacc.number, hacc.fresh⟩

/-! ### Nothing else delivers -/

theorem window_silent (w : ReplayWindow) (t : UInt64) (p : Party) :
    p.Silent (p.mapSession fun s => { s with packetWindow := w, lastRecvMs := t }) :=
  silent_mapSession (Session.sameInbox_of_eq rfl rfl rfl rfl rfl rfl) rfl id

theorem handleEstablishedPacket_silent {config : ClientConfig} (hside : p.side = .client config)
    (h : p.dispatches C packet = none) (now : UInt64) :
    p.Silent (p.handleEstablishedPacket C now packet).2 := by
  unfold handleEstablishedPacket
  split_ifs with henc hkeys hid
  · exact .refl p
  · exact .refl p
  · exact .refl p
  rcases authenticate_cases (C := C) now packet p with
    ⟨plaintext, htakes, hauth⟩ | ⟨-, e, w, -, hauth⟩
  · have hsilent := window_silent (p.session.packetWindow.accept packet.h.seq).2 now p
    rw [hauth]
    dsimp only
    cases hkind : PacketKind.ofCode packet.h.kind with
    | none => exact hsilent
    | some kind =>
      cases kind with
      | handshake | raw | keepalive => exact hsilent
      | message =>
        have hkeyless : p.keyless = false := by simpa [keyless, hside] using hkeys
        rw [dispatches_eq_some.mpr ⟨PacketKind.ofCode_eq_some.mp hkind, by simpa using henc,
          hkeyless, not_not.mp hid, htakes⟩] at h
        cases h
      | close =>
        dsimp only
        cases readCloseFrame plaintext with
        | error e => exact hsilent
        | ok reason => exact hsilent.trans (remoteClose_silent reason ⟨config, hside⟩)
  · rw [hauth]
    exact window_silent w p.session.lastRecvMs p

theorem showPacket_silent (packet : PacketView) (plaintext : Bytes) (p : Party) :
    p.Silent (p.showPacket packet plaintext) := by
  unfold showPacket
  dsimp only
  split_ifs with hstate
  · refine (silent_transitionState fun hc => ?_).trans (log_silent rfl _)
    rw [hstate] at hc
    cases hc
  · exact log_silent rfl p

theorem handleSessionPacket_silent {config : ServerConfig} (hside : p.side = .server config)
    (h : p.dispatches C packet = none) : p.Silent (p.handleSessionPacket C now packet).2 := by
  unfold handleSessionPacket
  split_ifs with hhandshake henc hid
  · exact .refl p
  · exact .refl p
  · exact .refl p
  rcases authenticate_cases (C := C) now packet p with
    ⟨plaintext, htakes, hauth⟩ | ⟨-, e, w, -, hauth⟩
  · rw [hauth]
    dsimp only
    have hsilent := window_silent (p.session.packetWindow.accept packet.h.seq).2 now p
    have hopen := hsilent.trans (showPacket_silent packet plaintext _)
    cases hkind : PacketKind.ofCode packet.h.kind with
    | none => exact hopen
    | some kind =>
      cases kind with
      | handshake | raw | keepalive => exact hopen
      | message =>
        have hkeyless : p.keyless = false := by simp [keyless, hside]
        rw [dispatches_eq_some.mpr ⟨PacketKind.ofCode_eq_some.mp hkind, by simpa using henc,
          hkeyless, not_not.mp hid, htakes⟩] at h
        cases h
      | close =>
        dsimp only
        cases readCloseFrame plaintext with
        | error e => exact hopen
        | ok reason =>
          dsimp only
          split_ifs
          · exact hopen.trans (closeSession_silent now reason ⟨config, hopen.side.trans hside⟩)
          · exact hopen.trans (silent_transitionState fun _ => rfl)
  · rw [hauth]
    exact window_silent w p.session.lastRecvMs p

/-- Only packets that are dispatched deliver anything. -/
theorem receivePacket_silent (h : p.dispatches C packet = none) :
    p.Silent (p.receivePacket C now packet) := by
  have hend : ∀ {r q}, ChainOutcome C now r q → p.Silent r.2 → p.Silent q := by
    intro r q hchain hr
    cases hchain with
    | done | ignored => exact hr
    | violated => exact hr.trans (violation_silent now _ _)
  cases hside : p.side with
  | client config =>
    exact hend (receivePacket_client hside now packet) (handleEstablishedPacket_silent hside h now)
  | server config =>
    exact hend (receivePacket_server hside now packet) (handleSessionPacket_silent hside h)

theorem Silent.receipts_eq (h : p.Silent p') : p'.session.receipts = p.session.receipts := by
  rw [Session.receipts_eq_inbound, Session.receipts_eq_inbound, h.inbound]

theorem Sending.side_eq {priority : SendPriority} {msgs : List MsgView}
    (h : Sending C priority p msgs p') : p'.side = p.side := h.silent.side

end Party

end SecureCnet
