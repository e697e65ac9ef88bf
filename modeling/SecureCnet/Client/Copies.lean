import SecureCnet.Client.Effects

/-!
# Copies of received datagrams

An established client drops a second copy of an encrypted packet: the replay window
rejects its number. A late copy of a handshake packet takes another path, which ends
the connection.
-/

namespace SecureCnet

/-- The datagram is a packet with the encrypted flag. -/
def isEncrypted (datagram : Bytes) : Bool :=
  match parsePacket datagram with
  | .error _ => false
  | .ok packet => packetHeaderEncrypted packet.h

/-- A client ends its connection over these codes. -/
def Errc.Fatal (code : Errc) : Prop := ∀ config, (Party.chainReason (.client config) code).isSome

theorem Errc.Malformed.fatal {code : Errc} (h : code.Malformed) : code.Fatal := by
  rcases h with rfl | rfl <;> exact fun _ => rfl

theorem fatal_protocolError : Errc.Fatal .protocolError := fun _ => rfl

theorem fatal_stateError : Errc.Fatal .stateError := fun _ => rfl

namespace Party

variable {C : Crypto} {p p' : Party} {packet : PacketView}

/-- The packet is one of the session and opens. -/
structure Opens (C : Crypto) (p : Party) (packet : PacketView) : Prop where
  encrypted : packetHeaderEncrypted packet.h = true
  keys : p.session.keys.empty = false
  connId : packet.h.connId = p.session.connId
  authentic : ∃ plaintext, p.openPacket C packet = .ok plaintext
  seq : packet.h.seq ≠ 0

theorem openPacket_congr (h : p'.session.keys = p.session.keys) (packet : PacketView) :
    p'.openPacket C packet = p.openPacket C packet := by
  unfold openPacket
  rw [h]

theorem Opens.congr (h : p.Opens C packet) (hk : p'.session.keys = p.session.keys)
    (hc : p'.session.connId = p.session.connId) : p'.Opens C packet :=
  ⟨h.encrypted, by rw [hk]; exact h.keys, by rw [hc]; exact h.connId,
    by rw [openPacket_congr hk]; exact h.authentic, h.seq⟩

/-- The number of the packet is offered to the replay window. -/
def offered (packet : PacketView) (p : Party) : Party :=
  p.mapSession fun s => { s with packetWindow := (s.packetWindow.accept packet.h.seq).2 }

theorem handleEstablishedPacket_rejected (h : p.Opens C packet)
    (hrej : (p.session.packetWindow.accept packet.h.seq).1 = false) (now : UInt64) :
    p.handleEstablishedPacket C now packet = (fail .replay "replayed packet", p.offered packet) := by
  obtain ⟨plaintext, hopen⟩ := h.authentic
  unfold handleEstablishedPacket authenticate
  rw [if_neg (by simp [h.encrypted]), if_neg (by simp [h.keys]), if_neg (not_not.mpr h.connId), hopen]
  simp only [if_neg h.seq, hrej]
  rfl

/-- A packet of an established client is refused with a fatal error and no effect, or its number
has been offered to the replay window. -/
theorem handleEstablishedPacket_cases (p : Party) (now : UInt64) (packet : PacketView)
    (hside : ∃ config, p.side = .client config) :
    (∃ e, p.handleEstablishedPacket C now packet = (.error e, p) ∧
      (e.code = .protocolError ∨ e.code = .stateError ∨ e.code.Malformed ∨
        e.code = .authFailed)) ∨
    (p.Opens C packet ∧ Steps C (fun _ _ => True) (p.offered packet)
      (p.handleEstablishedPacket C now packet).2) := by
  have hopen := openPacket_failsWith (C := C) packet p
  unfold handleEstablishedPacket
  split_ifs with henc hkeys hid
  · exact Or.inl ⟨_, rfl, Or.inl rfl⟩
  · exact Or.inl ⟨_, rfl, Or.inr (Or.inl rfl)⟩
  · exact Or.inl ⟨_, rfl, Or.inl rfl⟩
  unfold authenticate
  cases ho : p.openPacket C packet with
  | error e => exact Or.inl ⟨e, rfl, Or.inr (Or.inr (hopen e ho))⟩
  | ok plaintext =>
    dsimp only
    split_ifs with hseq hfresh
    · exact Or.inl ⟨_, rfl, Or.inl rfl⟩
    · refine Or.inr ⟨⟨by simpa using henc, by simpa using hkeys, not_not.mp hid, ⟨plaintext, ho⟩,
        hseq⟩, .refl⟩
    · refine Or.inr ⟨⟨by simpa using henc, by simpa using hkeys, not_not.mp hid, ⟨plaintext, ho⟩,
        hseq⟩, ?_⟩
      have hrecv : Steps C (fun _ _ => True) (p.offered packet)
          ((p.offered packet).mapSession fun s => { s with lastRecvMs := now }) :=
        steps_mapSession (Session.tidy_of_eq rfl rfl rfl rfl rfl .refl rfl rfl .refl rfl rfl rfl rfl)
      cases PacketKind.ofCode packet.h.kind with
      | none => exact hrecv
      | some kind =>
        cases kind with
        | raw => exact hrecv
        | handshake => exact hrecv
        | keepalive => exact hrecv
        | message =>
          exact hrecv.trans (dispatchMessagePayload_steps (Or.inl fun _ _ => trivial) now _)
        | close =>
          dsimp only
          cases readCloseFrame plaintext with
          | error e => exact hrecv
          | ok reason => exact hrecv.trans (remoteClose_steps reason hside)

end Party

namespace Client

variable {C : Crypto} {c c' : Client} {packet : PacketView} {datagram : Bytes}
  {now : UInt64} {visits : Visits} {H : ServerHello → SessionKeys → Prop}

/-! ### What ends a connection -/

theorem failConnection_state (reason : CloseReason) (c : Client) :
    (c.failConnection reason).session.state = .closed :=
  Party.failConnection_state reason c.party

theorem ChainOutcome.closed {e : Failure} (h : ChainOutcome (.error e, c) c') (hf : e.code.Fatal) :
    c'.session.state = .closed := by
  obtain ⟨reason, hr⟩ := Option.isSome_iff_exists.mp (hf c.config)
  cases h with
  | ignored _ _ h => cases hr.symm.trans h
  | failed _ _ reason => exact failConnection_state reason c

theorem fatal_of_refused {code : Errc}
    (h : code = .protocolError ∨ code = .stateError ∨ code.Malformed) : code.Fatal := by
  rcases h with rfl | rfl | h
  · exact fatal_protocolError
  · exact fatal_stateError
  · exact h.fatal

/-- After the handshake a client refuses handshake packets and runs session code on the rest. -/
theorem RouteOutcome.over {r : Result Unit × Client} (h : RouteOutcome C now visits packet c r)
    (hst : c.session.state ≠ .handshaking) :
    (∃ e, r = (.error e, c) ∧ e.code.Fatal) ∨ packet.h.kind ≠ PacketKind.handshake.code ∧
      ∃ rc p, c.party.handleEstablishedPacket C now packet = (rc, p) ∧ r = (rc, c.withParty p) := by
  cases h with
  | refused e hkind hcode => exact Or.inl ⟨e, rfl, fatal_of_refused hcode⟩
  | retried token hkind hplain hstate => exact absurd hstate hst
  | rejected hello e hkind h => exact absurd h.2.1 hst
  | unanswered hello keys e p h | answered hello keys p h => exact absurd h.2.2.1 hst
  | misclosed e hkind hplain hstate | closed reason hkind hplain hstate => exact absurd hstate hst
  | secure hkind hclose hp => exact Or.inr ⟨hkind, _, _, hp, rfl⟩

/-- An unencrypted packet is fatal once the handshake is over. -/
theorem receive_plain (hplain : isEncrypted datagram = false)
    (hst : c.session.state ≠ .handshaking) (now : UInt64) (visits : Visits) :
    (c.receive C datagram now visits).session.state = .closed := by
  have h := receive_outcome (C := C) datagram now visits c
  generalize c.receive C datagram now visits = c' at h
  cases h with
  | garbled e reason => exact failConnection_state reason _
  | routed hp hroute hchain =>
    unfold isEncrypted at hplain
    rw [hp] at hplain
    rcases hroute.over hst with ⟨e, rfl, hfatal⟩ | ⟨-, rc, p, hsecure, rfl⟩
    · exact hchain.closed hfatal
    · unfold Party.handleEstablishedPacket at hsecure
      rw [if_pos (by simpa using hplain)] at hsecure
      obtain ⟨rfl, rfl⟩ := Prod.mk.inj hsecure
      exact hchain.closed fatal_protocolError

/-- An encrypted packet is fatal during the handshake. -/
theorem receive_during_handshake (hc : c.Tame) (hst : c.session.state = .handshaking)
    (henc : isEncrypted datagram = true) (now : UInt64) (visits : Visits) :
    (c.receive C datagram now visits).session.state = .closed := by
  have h := receive_outcome (C := C) datagram now visits c
  generalize c.receive C datagram now visits = c' at h
  cases h with
  | garbled e reason => exact failConnection_state reason _
  | @routed packet _ _ hp hroute hchain =>
    unfold isEncrypted at henc
    rw [hp] at henc
    have hno : packetHeaderEncrypted packet.h ≠ false := ne_false_of_eq_true henc
    cases hroute with
    | refused e hkind hcode => exact hchain.closed (fatal_of_refused hcode)
    | retried token hkind hplain => exact absurd hplain hno
    | rejected hello e hkind h => exact absurd h.1 hno
    | unanswered hello keys e p h | answered hello keys p h => exact absurd h.2.1 hno
    | misclosed e hkind hplain | closed reason hkind hplain => exact absurd hplain hno
    | secure hkind hclose hsecure =>
      obtain ⟨e, he, hcode⟩ := hc.handleEstablishedPacket (C := C) (by rw [hst]) now packet
      obtain ⟨rfl, rfl⟩ := Prod.mk.inj (hsecure.symm.trans he)
      exact hchain.closed (fatal_of_refused (hcode.imp id Or.inl))

/-! ### Packets the replay window has seen -/

/-- An authentic packet of the session whose number the replay window rejects. -/
structure Seen (C : Crypto) (c : Client) (packet : PacketView) : Prop where
  kind : packet.h.kind ≠ PacketKind.handshake.code
  taken : c.party.Opens C packet
  rejected : (c.session.packetWindow.accept packet.h.seq).1 = false

theorem receive_seen (hp : parsePacket datagram = .ok packet) (h : c.Seen C packet) (now : UInt64)
    (visits : Visits) : c.receive C datagram now visits =
      (c.heard datagram).withParty (c.party.offered packet) := by
  have hsecure := Party.handleEstablishedPacket_rejected h.taken h.rejected now
  unfold receive handlePacket routePacket onParty
  simp only [hp, if_neg h.kind, h.taken.encrypted, Bool.not_true, Bool.false_eq_true, and_false,
    if_false]
  rw [show Party.handleEstablishedPacket C now packet (c.heard datagram).party = _ from hsecure]
  rfl

/-- An established client that stays so has opened the packet, and will not take it again. -/
theorem receive_established {S : Set ℕ} (hst : c.session.state = .established)
    (hwin : c.session.packetWindow.Holds S)
    (hafter : (c.receive C datagram now visits).session.state = .established) :
    ∃ packet, parsePacket datagram = .ok packet ∧
      (c.receive C datagram now visits).Seen C packet := by
  have h := receive_outcome (C := C) datagram now visits c
  generalize c.receive C datagram now visits = c' at h hafter ⊢
  have hclosed : c'.session.state ≠ .closed := by
    rw [hafter]
    decide
  cases h with
  | garbled e reason => exact absurd (failConnection_state reason _) hclosed
  | @routed packet _ _ hp hroute hchain =>
    refine ⟨packet, hp, ?_⟩
    rcases hroute.over (by rw [hst]; decide) with ⟨e, rfl, hfatal⟩ | ⟨hk, rc, p, hsecure, rfl⟩
    · exact absurd (hchain.closed hfatal) hclosed
    rcases Party.handleEstablishedPacket_cases (C := C) c.party now packet ⟨c.config, rfl⟩ with
      ⟨e, he, hcode⟩ | ⟨htakes, hsteps⟩
    · obtain ⟨rfl, rfl⟩ := Prod.mk.inj (hsecure.symm.trans he)
      refine absurd (hchain.closed ?_) hclosed
      rcases hcode with hcode | hcode | hcode | hcode
      · exact fatal_of_refused (Or.inl hcode)
      · exact fatal_of_refused (Or.inr (Or.inl hcode))
      · exact hcode.fatal
      · rw [hcode]
        exact fun _ => rfl
    · rw [show c.party.handleEstablishedPacket C now packet = _ from hsecure] at hsteps
      -- Either the session code had no complaint, or the client has failed.
      have hs : c'.session = p.session := by
        cases hchain with
        | done | ignored => rfl
        | failed e _ reason => exact absurd (failConnection_state reason _) hclosed
      have hlasts := hsteps.lasts (by rw [← hs, hafter]; decide)
      refine ⟨hk, htakes.congr ?_ ?_, ?_⟩
      · exact (congrArg Session.keys hs).trans hlasts.keys
      · exact (congrArg Session.connId hs).trans hlasts.connId
      · rw [hs]
        exact hlasts.window.rejects (ReplayWindow.holds_accept hwin _) (hwin.accept_again _)

theorem Seen.congr (h : c.Seen C packet) (hk : c'.session.keys = c.session.keys)
    (hc : c'.session.connId = c.session.connId)
    (hw : (c'.session.packetWindow.accept packet.h.seq).1 = false) : c'.Seen C packet :=
  ⟨h.kind, h.taken.congr hk hc, hw⟩

/-! ### What a client has received -/

/-- The datagrams `R` were in the clear, or, of an established client, have been seen. -/
structure Remembers (C : Crypto) (R : List Bytes) (c : Client) : Prop where
  handshaking : c.session.state = .handshaking → ∀ d ∈ R, isEncrypted d = false
  window : c.session.state = .established → ∃ S, c.session.packetWindow.Holds S
  established : c.session.state = .established → ∀ d ∈ R, isEncrypted d = false ∨
    ∃ packet, parsePacket d = .ok packet ∧ c.Seen C packet

variable {R : List Bytes}

theorem Remembers.of_eq (h : c.Remembers C R) (hst : c'.session.state = c.session.state)
    (hk : c'.session.keys = c.session.keys) (hc : c'.session.connId = c.session.connId)
    (hw : c'.session.packetWindow = c.session.packetWindow) : c'.Remembers C R := by
  refine ⟨fun hs => h.handshaking (hst.symm.trans hs), fun hs => ?_, fun hs d hd => ?_⟩
  · rw [hw]
    exact h.window (hst.symm.trans hs)
  · refine (h.established (hst.symm.trans hs) d hd).imp id ?_
    rintro ⟨packet, hp, hseen⟩
    refine ⟨packet, hp, hseen.congr hk hc ?_⟩
    rw [hw]
    exact hseen.rejected

theorem Change.remembers (h : c.Remembers C R) (hc : Change C H c c') : c'.Remembers C R := by
  rcases hc.cases with ⟨p, rfl, hran, hrank⟩ | hquiet |
    ⟨hello, keys, now, p, rfl, hstate, -, hsteps, hrank⟩
  · have hset := rank_of_ran hran hrank
    have hopen : p.session.state = .established → p.session.state ≠ .closed := fun hs => by
      rw [hs]
      decide
    refine ⟨fun hs => ?_, fun hs => ?_, fun hs d hd => ?_⟩
    · rw [show p.session.state = _ from hs] at hset
      exact absurd hset (by decide)
    · obtain ⟨S, hS⟩ := h.window (established_of_rank hs hran.rank hrank)
      exact (hran.lasts (hopen hs)).window.holds hS
    · have hst := established_of_rank hs hran.rank hrank
      obtain ⟨S, hS⟩ := h.window hst
      have hlasts := hran.lasts (hopen hs)
      refine (h.established hst d hd).imp id ?_
      rintro ⟨packet, hp, hseen⟩
      exact ⟨packet, hp, hseen.congr hlasts.keys hlasts.connId
        (hlasts.window.rejects hS hseen.rejected)⟩
  · exact h.of_eq hquiet.state hquiet.keys hquiet.connId hquiet.packetWindow
  · -- The window starts anew, and up to here nothing was encrypted.
    refine ⟨fun hs => ?_, fun hs => ?_, fun hs d hd => Or.inl (h.handshaking hstate d hd)⟩
    · rw [show p.session.state = _ from hs] at hrank
      exact absurd hrank (by decide)
    · have hlasts := hsteps.lasts (by rw [show p.session.state = _ from hs]; decide)
      exact hlasts.window.holds ReplayWindow.holds_default

theorem Steps.remembers (h : c.Remembers C R) (hs : Steps C H c c') : c'.Remembers C R := by
  induction hs with
  | refl => exact h
  | tail _ hc ih => exact hc.remembers ih

theorem Change.origin (hc : Change C H c c') :
    (c'.session.state = .handshaking → c.session.state = .handshaking) ∧
      (c'.session.state = .established →
        c.session.state = .handshaking ∨ c.session.state = .established) := by
  rcases hc.cases with ⟨p, rfl, hran, hrank⟩ | hquiet | ⟨hello, keys, now, p, rfl, hstate, -⟩
  · refine ⟨fun hs => ?_, fun hs => Or.inr (established_of_rank hs hran.rank hrank)⟩
    have hset := rank_of_ran hran hrank
    rw [show p.session.state = _ from hs] at hset
    exact absurd hset (by decide)
  · rw [hquiet.state]
    exact ⟨id, Or.inr⟩
  · exact ⟨fun _ => hstate, fun _ => Or.inl hstate⟩

theorem Steps.origin (hs : Steps C H c c') :
    (c'.session.state = .handshaking → c.session.state = .handshaking) ∧
      (c'.session.state = .established →
        c.session.state = .handshaking ∨ c.session.state = .established) := by
  induction hs with
  | refl => exact ⟨id, Or.inr⟩
  | tail _ hc ih =>
    refine ⟨fun h => ih.1 (hc.origin.1 h), fun h => ?_⟩
    rcases hc.origin.2 h with hst | hst
    · exact Or.inl (ih.1 hst)
    · exact ih.2 hst

theorem Change.received_eq (hc : Change C H c c') : c'.received = c.received := by
  rcases hc.cases with ⟨p, rfl, -⟩ | hquiet | ⟨hello, keys, now, p, rfl, -⟩
  · rfl
  · exact hquiet.received
  · rfl

theorem Steps.received_eq (hs : Steps C H c c') : c'.received = c.received := by
  induction hs with
  | refl => rfl
  | tail _ hc ih => exact hc.received_eq.trans ih

def Recalls (C : Crypto) (c : Client) : Prop := c.Tame ∧ c.Remembers C c.received

theorem receive_recalls (h : c.Recalls C) (datagram : Bytes) (now : UInt64) (visits : Visits) :
    (c.receive C datagram now visits).Recalls C := by
  obtain ⟨htame, hrem⟩ := h
  have hsteps := receive_steps (C := C) (H := fun _ _ => True) htame datagram now visits
    fun _ _ _ _ _ => trivial
  have hnoted : (c.heard datagram).Tame := htame
  have hold : Remembers C c.received (c.heard datagram) := hrem.of_eq rfl rfl rfl rfl
  have hrem' := hsteps.remembers hold
  have horigin := hsteps.origin
  have hplain : c.session.state = .handshaking →
      (c.receive C datagram now visits).session.state ≠ .closed →
      isEncrypted datagram = false := by
    intro hst hne
    by_contra henc
    exact hne (receive_during_handshake htame hst (by simpa using henc) now visits)
  refine ⟨hsteps.tame hnoted, ?_⟩
  rw [hsteps.received_eq]
  refine ⟨fun hs => ?_, hrem'.window, fun hs => ?_⟩
  · refine List.forall_mem_append.mpr ⟨hrem'.handshaking hs, List.forall_mem_singleton.mpr ?_⟩
    exact hplain (horigin.1 hs) (by rw [hs]; decide)
  · refine List.forall_mem_append.mpr ⟨hrem'.established hs, List.forall_mem_singleton.mpr ?_⟩
    rcases horigin.2 hs with hst | hst
    · exact Or.inl (hplain hst (by rw [hs]; decide))
    · obtain ⟨S, hS⟩ := hrem.window hst
      exact Or.inr (receive_established hst hS hs)

theorem act_recalls (h : c.Recalls C) (a : Act) : (c.act C a).Recalls C := by
  by_cases ha : ∃ datagram now visits, a = .receive datagram now visits
  · obtain ⟨datagram, now, visits, rfl⟩ := ha
    unfold act
    dsimp only
    split_ifs
    · exact receive_recalls h datagram now visits
    · exact h
  · refine ⟨act_tame h.1 a, ?_⟩
    have hnoting : c.noting a = c := by
      cases a with
      | receive datagram now visits => exact absurd ⟨_, _, _, rfl⟩ ha
      | _ => rfl
    rcases act_cases (C := C) h.1 a with hs | hcl | ⟨c₀, hb, hs⟩
    · rw [hnoting] at hs
      rw [hs.received_eq]
      exact hs.remembers h.2
    · refine ⟨fun hst => ?_, fun hst => ?_, fun hst => ?_⟩ <;>
      · rw [hcl.state] at hst
        cases hst
    · rw [hs.received_eq, hb.received]
      refine hs.remembers ⟨by simp, fun hst => ?_, by simp⟩
      rw [hb.state] at hst
      cases hst

theorem create_recalls (config : ClientConfig) (now : UInt64) : (create config now).Recalls C :=
  ⟨create_tame config now, by simp [create], by simp [create], by simp [create]⟩

/-! ### Copies -/

/-- State, id, keys and queues are as before. -/
structure Unmoved (c c' : Client) : Prop where
  state : c'.session.state = c.session.state
  connId : c'.session.connId = c.session.connId
  keys : c'.session.keys = c.session.keys
  packets : c'.net.pending = c.net.pending
  reliable : c'.session.reliable.pending = c.session.reliable.pending
  orderedReliable : c'.session.orderedReliable.pending = c.session.orderedReliable.pending

/-- A copy of a datagram an established client has received, or any unencrypted one, leaves the
client alone exactly when it is encrypted. -/
theorem Recalls.unmoved_iff (h : c.Recalls C) (hst : c.session.state = .established)
    (hcopy : datagram ∈ c.received ∨ isEncrypted datagram = false) (now : UInt64)
    (visits : Visits) :
    c.Unmoved (c.receive C datagram now visits) ↔ isEncrypted datagram = true := by
  have hne : c.session.state ≠ .handshaking := by
    rw [hst]
    decide
  have hmoved : (c.receive C datagram now visits).session.state = .closed →
      ¬ c.Unmoved (c.receive C datagram now visits) := by
    intro hclosed h
    have hstate := h.state
    rw [hclosed, hst] at hstate
    cases hstate
  constructor
  · intro hsame
    by_contra hplain
    exact hmoved (receive_plain (by simpa using hplain) hne now visits) hsame
  · intro henc
    have hmem := hcopy.resolve_right (by rw [henc]; decide)
    rcases h.2.established hst datagram hmem with hplain | ⟨packet, hp, hseen⟩
    · cases henc.symm.trans hplain
    · rw [receive_seen hp hseen now visits]
      exact ⟨rfl, rfl, rfl, rfl, rfl, rfl⟩

end Client

end SecureCnet
