import SecureCnet.Server.Timeouts
import SecureCnet.Session.Admission

/-!
# What a housekeeping pass queues

A pass visits the sessions one after the other and stops at the first keepalive it cannot
queue. Each session has at most one packet to queue, a close frame or a keepalive, and
whether it has one can be said from the state before the pass: visits of other sessions
only fill the queue. So it can be said there as well if the pass gets through.
-/

namespace SecureCnet

instance (config : ServerConfig) (now : UInt64) (s : Session) : Decidable (s.Overdue config now) :=
  inferInstanceAs (Decidable (_ ∨ _))

/-- Housekeeping is to send a keepalive for the session. -/
def Session.KeepaliveDue (config : ServerConfig) (now : UInt64) (s : Session) : Prop :=
  s.state = .established ∧ ¬s.Overdue config now ∧
    (s.lastSendMs = 0 ∨ config.keepaliveIntervalMs ≤ now - s.lastSendMs)

instance (config : ServerConfig) (now : UInt64) (s : Session) :
    Decidable (s.KeepaliveDue config now) :=
  inferInstanceAs (Decidable (_ ∧ _))

namespace Transport

/-- The host has paid for a close frame in the clear. -/
def paysClose (config : ServerConfig) (now : UInt64) (dest : Endpoint) (net : Transport) : Bool :=
  (net.canAmplifyTo config.abuse dest (UInt64.ofNat (NetConfig.packetHeaderBytes + 2)) now).1

/-- At most one packet joins the queue, and nobody's allowance changes. -/
structure Adds (config : ServerConfig) (adds : Bool) (net net' : Transport) : Prop where
  length : net'.pending.length = net.pending.length +
    if adds = true ∧ net.pending.length < config.maxPendingPackets.toNat then 1 else 0
  pays : ∀ now dest, net'.paysClose config now dest = net.paysClose config now dest

variable {C : Crypto} {config : ServerConfig} {adds : Bool} {net net' net'' : Transport}

theorem adds_nothing (hpending : net'.pending = net.pending)
    (hpreauth : net'.preauth = net.preauth) : Adds config false net net' := by
  refine ⟨by simp [hpending], fun now dest => ?_⟩
  unfold paysClose canAmplifyTo preauthStateFor
  rw [hpreauth]

theorem Adds.trans (h : Adds config false net net') (h' : Adds config adds net' net'') :
    Adds config adds net net'' := by
  have hlength := h.length
  rw [if_neg (by simp), Nat.add_zero] at hlength
  exact ⟨hlength ▸ h'.length, fun now dest => (h'.pays ..).trans (h.pays ..)⟩

theorem sealAndEnqueue_adds {kind : PacketKind} {encrypted : Bool} {payload bytes : Bytes}
    {connId seq : UInt64} {key : Block 32}
    (hb : buildPacket C kind encrypted payload connId seq key = .ok bytes) (dest : Endpoint)
    (owner : UInt64) (priority : SendPriority) (net : Transport) :
    Adds config true net (sealAndEnqueue C config.maxPendingPackets dest owner kind encrypted
      payload connId seq key priority net).2 := by
  unfold sealAndEnqueue enqueuePendingPacket
  rw [hb]
  dsimp only
  split_ifs with hfull
  · refine ⟨?_, fun _ _ => rfl⟩
    rw [if_neg fun h => not_lt.mpr hfull h.2]
    rfl
  · refine ⟨?_, fun _ _ => rfl⟩
    rw [if_pos ⟨rfl, not_le.mp hfull⟩]
    exact List.orderedInsert_length ..

/-- Looking at the allowance of a host leaves everybody's as it is. -/
theorem canAmplifyTo_adds (config : ServerConfig) (dest : Endpoint) (bytes now : UInt64)
    (net : Transport) : Adds config false net (net.canAmplifyTo config.abuse dest bytes now).2 := by
  refine ⟨by simp [canAmplifyTo], fun now' dest' => ?_⟩
  unfold paysClose canAmplifyTo preauthStateFor
  by_cases hhost : dest'.hostKey = dest.hostKey
  · rw [hhost, AList.lookup_insert]
    rfl
  · rw [AList.lookup_insert_ne hhost]

end Transport

open Transport

namespace Party

variable {C : Crypto} {config : ServerConfig} {p : Party}

theorem queuePacketServer_adds (hC : C.IdealAead) {payload : Bytes}
    (hlen : payload.length ≤ NetConfig.maxEncryptedPlaintextBytes) (kind : PacketKind)
    (priority : SendPriority) (p : Party) :
    Adds config (!p.session.keys.empty) p.net
      (p.queuePacketServer C config kind payload priority).2.net := by
  obtain ⟨bytes, hb⟩ := buildPacket_of_le hC hlen kind p.session.connId p.session.sendSeq
    p.session.keys.tx
  unfold queuePacketServer
  dsimp only
  rw [if_neg (not_lt.mpr hlen)]
  cases p.session.keys.empty with
  | true => exact adds_nothing rfl rfl
  | false => exact sealAndEnqueue_adds hb ..

/-- A close frame in the clear joins the queue if it is paid for. -/
theorem queuePlainServer_adds (now : UInt64) (reason : CloseReason) (p : Party) :
    Adds config (p.net.paysClose config now p.session.endpoint) p.net
      (p.queuePlainServer C config now .close (be16 reason.code) .high).2.net := by
  have hnumbered : Adds config false p.net
    { p.net with statelessSeq := p.net.statelessSeq + 1 } := adds_nothing rfl rfl
  have hlooked := hnumbered.trans (canAmplifyTo_adds config p.session.endpoint
    (UInt64.ofNat (NetConfig.packetHeaderBytes + 2)) now _)
  have hlen : (be16 reason.code).length ≤ NetConfig.maxPayloadBytes := by
    rw [length_be16]
    decide
  rw [← hnumbered.pays]
  unfold queuePlainServer queuePlainPacket paysClose
  dsimp only
  rw [if_neg (not_lt.mpr hlen), length_be16]
  cases (canAmplifyTo config.abuse p.session.endpoint
    (UInt64.ofNat (NetConfig.packetHeaderBytes + 2)) now
    { p.net with statelessSeq := p.net.statelessSeq + 1 }).1 with
  | false => exact hlooked
  | true => exact hlooked.trans (sealAndEnqueue_adds (buildPacket_plain hlen C .close _ _ _) ..)

end Party

/-- A packet of the session can be queued: there are keys for it or, as long as close frames go in
the clear, its host has paid for one. -/
def Session.canQueue (config : ServerConfig) (now : UInt64) (net : Transport) (s : Session) :
    Bool :=
  if s.closesEncrypted then !s.keys.empty else net.paysClose config now s.endpoint

/-- Housekeeping has a packet of the session to queue, and can. -/
def Session.queuesPacket (config : ServerConfig) (now : UInt64) (net : Transport) (s : Session) :
    Bool :=
  decide (s.Overdue config now ∨ s.KeepaliveDue config now) && s.canQueue config now net

namespace Party

variable {C : Crypto} {config : ServerConfig} {p : Party}

theorem closeSession_adds (hC : C.IdealAead) (hside : p.side = .server config)
    (hopen : p.session.state ≠ .closed) (now : UInt64) (reason : CloseReason) :
    Adds config (p.session.canQueue config now p.net) p.net (p.closeSession C now reason).net := by
  have hnet : (p.closeSession C now reason).net =
      ((p.mapSession fun s => { s with closeReason := reason }).queueClosePacket C now reason
        p.session.closesEncrypted).2.net := by
    unfold closeSession
    dsimp only
    split_ifs with h
    · rfl
    · exact absurd hopen h
  have hlen : (be16 reason.code).length ≤ NetConfig.maxEncryptedPlaintextBytes := by
    rw [length_be16]
    decide
  have hsealed : Adds config (!p.session.keys.empty) p.net _ :=
    queuePacketServer_adds hC hlen .close .high
      (p.mapSession fun s => { s with closeReason := reason })
  have hplain : Adds config (p.net.paysClose config now p.session.endpoint) p.net _ :=
    queuePlainServer_adds (C := C) now reason
      (p.mapSession fun s => { s with closeReason := reason })
  rw [hnet]
  unfold queueClosePacket Session.canQueue
  rw [show writeCloseFrame ⟨8, []⟩ reason = .ok ⟨8, be16 reason.code⟩ from rfl]
  simp only [mapSession_side, hside]
  cases p.session.closesEncrypted with
  | true => exact hsealed
  | false => exact hplain

/-- A visit of housekeeping: what it queues, and when it fails. -/
theorem runHousekeeping_adds (hC : C.IdealAead) (hside : p.side = .server config) (now : UInt64) :
    Adds config (p.session.queuesPacket config now p.net) p.net (p.runHousekeeping C now).2.net ∧
      ((p.runHousekeeping C now).1 = .ok () ↔ (p.session.KeepaliveDue config now →
        p.session.keys.empty = false ∧
          p.net.pending.length < config.maxPendingPackets.toNat)) := by
  have hclose : p.session.Overdue config now → ∀ reason,
      Adds config (p.session.queuesPacket config now p.net) p.net
        ((p.expireFragments now).closeSession C now reason).net := by
    intro hlate reason
    have hopen : p.session.state ≠ .closed := by
      rcases hlate with h | h <;> rw [h.1] <;> decide
    rw [Session.queuesPacket, decide_eq_true (Or.inl hlate), Bool.true_and]
    exact closeSession_adds (p := p.expireFragments now) hC hside hopen now reason
  have hquiet : ¬(p.session.Overdue config now ∨ p.session.KeepaliveDue config now) →
      p.session.queuesPacket config now p.net = false := by
    intro hno
    rw [Session.queuesPacket, decide_eq_false hno, Bool.false_and]
  unfold runHousekeeping
  simp only [mapSession_side, hside]
  split_ifs with hshake hidle hkeep hdrain
  · have hlate : p.session.Overdue config now := Or.inl hshake
    exact ⟨hclose hlate _, iff_of_true rfl fun hdue => absurd hlate hdue.2.1⟩
  · have hlate : p.session.Overdue config now := Or.inr hidle
    exact ⟨hclose hlate _, iff_of_true rfl fun hdue => absurd hlate hdue.2.1⟩
  · have hdue : p.session.KeepaliveDue config now := ⟨hkeep.1, not_or.mpr ⟨hshake, hidle⟩, hkeep.2⟩
    have hsealed : Adds config (!p.session.keys.empty) p.net _ :=
      queuePacketServer_adds hC (show ([] : Bytes).length ≤ _ from Nat.zero_le _) .keepalive .high
        (p.expireFragments now)
    rw [Session.queuesPacket, decide_eq_true (Or.inr hdue), Bool.true_and, Session.canQueue,
      if_pos (by simp [Session.closesEncrypted, hdue.1]), imp_iff_right hdue]
    constructor
    · unfold queueKeepalive queueSecure
      simp only [mapSession_side, hside]
      exact hsealed
    · apply (queueSecure_ok_iff hC (Nat.zero_le _) .keepalive .high).trans
      simp [canSeal, hside, Side.maxPendingPackets]
  · have hno : ¬(p.session.Overdue config now ∨ p.session.KeepaliveDue config now) := by
      have hclosing : p.session.state = .closing := hdrain.1
      simp [Session.Overdue, Session.KeepaliveDue, hclosing]
    rw [hquiet hno]
    exact ⟨adds_nothing rfl rfl, iff_of_true rfl fun hdue => absurd (Or.inr hdue) hno⟩
  · have hno : ¬(p.session.Overdue config now ∨ p.session.KeepaliveDue config now) := by
      rintro (hlate | hdue)
      · exact not_or.mpr ⟨hshake, hidle⟩ hlate
      · exact hkeep ⟨hdue.1, hdue.2.2⟩
    rw [hquiet hno]
    exact ⟨adds_nothing rfl rfl, iff_of_true rfl fun hdue => absurd (Or.inr hdue) hno⟩

end Party

namespace Server

variable {C : Crypto} {srv srv' : Server} {connId now : UInt64} {queued : ℕ} {ids : List UInt64}

/-- Housekeeping has a packet to queue for the session with the given id, and can. -/
def queuesFor (now : UInt64) (srv : Server) (connId : UInt64) : Bool :=
  (srv.sessions.lookup connId).any fun ps => ps.session.queuesPacket srv.config now srv.net

/-- Visited in this order, with so many packets queued before, each session whose keepalive is due
has keys and finds room for it behind what the others have to queue. -/
def KeepalivesFit (now : UInt64) (srv : Server) : List UInt64 → ℕ → Prop
  | [], _ => True
  | connId :: rest, queued =>
    (∀ ps, srv.sessions.lookup connId = some ps → ps.session.KeepaliveDue srv.config now →
      ps.session.keys.empty = false ∧ queued < srv.config.maxPendingPackets.toNat) ∧
    KeepalivesFit now srv rest (queued + if srv.queuesFor now connId then 1 else 0)

/-- What the sessions still to be visited find: they, and everybody's allowance, are as before the
pass, and the queue has grown to `queued` packets, or is full. -/
structure Halfway (srv : Server) (queued : ℕ) (ids : List UInt64) (srv' : Server) : Prop where
  config : srv'.config = srv.config
  lookup : ∀ id ∈ ids, srv'.sessions.lookup id = srv.sessions.lookup id
  queue : srv'.net.pending.length = queued ∨
    srv.config.maxPendingPackets.toNat ≤ srv'.net.pending.length ∧
      srv.config.maxPendingPackets.toNat ≤ queued
  pays : ∀ now dest, srv'.net.paysClose srv.config now dest = srv.net.paysClose srv.config now dest

/-- One visit: what the next ones find, and when it fails. -/
theorem Halfway.visit (hC : C.IdealAead) (h : srv.Halfway queued (connId :: ids) srv')
    (hnew : connId ∉ ids) (now : UInt64) :
    srv.Halfway (queued + if srv.queuesFor now connId then 1 else 0) ids
        (srv'.onStored (Party.runHousekeeping C now) connId).2 ∧
      ((srv'.onStored (Party.runHousekeeping C now) connId).1 = .ok () ↔
        ∀ ps, srv.sessions.lookup connId = some ps → ps.session.KeepaliveDue srv.config now →
          ps.session.keys.empty = false ∧ queued < srv.config.maxPendingPackets.toNat) := by
  have hrest := fun id hid => h.lookup id (List.mem_cons_of_mem connId hid)
  have hqueue := h.queue
  unfold queuesFor onStored
  rw [h.lookup connId List.mem_cons_self]
  cases hps : srv.sessions.lookup connId with
  | none => exact ⟨⟨h.config, hrest, by simpa using hqueue, h.pays⟩, by simp⟩
  | some ps =>
    obtain ⟨hadds, hok⟩ := Party.runHousekeeping_adds hC (p := srv'.party connId ps) rfl now
    have hqueues : ps.session.queuesPacket srv'.config now srv'.net =
        ps.session.queuesPacket srv.config now srv.net := by
      unfold Session.queuesPacket Session.canQueue
      rw [h.config, h.pays]
    change Adds srv'.config (ps.session.queuesPacket srv'.config now srv'.net) srv'.net _ at hadds
    rw [hqueues, h.config] at hadds
    refine ⟨⟨h.config, fun id hid => ?_, ?_, fun now dest => ?_⟩, hok.trans ?_⟩
    · have hne : id ≠ connId := fun heq => hnew (heq ▸ hid)
      exact (lookup_store_ne hne ps _ srv').trans (hrest id hid)
    · change ((srv'.party connId ps).runHousekeeping C now).2.net.pending.length = _ ∨
        _ ≤ ((srv'.party connId ps).runHousekeeping C now).2.net.pending.length ∧ _
      rw [hadds.length, Option.any_some]
      cases ps.session.queuesPacket srv.config now srv.net with
      | false => simpa using hqueue
      | true =>
        simp only [true_and, if_true]
        split_ifs <;> omega
    · exact (hadds.pays ..).trans (h.pays ..)
    · have hroom : srv'.net.pending.length < srv.config.maxPendingPackets.toNat ↔
          queued < srv.config.maxPendingPackets.toNat := by omega
      change (ps.session.KeepaliveDue srv'.config now → _ ∧
        srv'.net.pending.length < srv'.config.maxPendingPackets.toNat) ↔ _
      rw [h.config, hroom]
      simp only [Option.some.injEq, forall_eq']
      rfl

/-- A pass over the sessions gets through exactly if the keepalives that are due fit. -/
theorem Halfway.visitSessions_ok_iff (hC : C.IdealAead) (h : srv.Halfway queued ids srv')
    (hids : ids.Nodup) (now : UInt64) :
    (visitSessions (onStored (Party.runHousekeeping C now)) ids srv').1 = .ok () ↔
      srv.KeepalivesFit now ids queued := by
  induction ids generalizing srv' queued with
  | nil => exact iff_of_true rfl trivial
  | cons connId rest ih =>
    obtain ⟨hnew, hrest⟩ := List.nodup_cons.mp hids
    obtain ⟨hhalf, hok⟩ := h.visit hC hnew now
    have hnext := ih hhalf hrest
    unfold visitSessions KeepalivesFit
    rw [← hok]
    cases hvisit : srv'.onStored (Party.runHousekeeping C now) connId with
    | mk rc srv₁ =>
      rw [hvisit] at hnext
      cases rc with
      | error e => simp
      | ok _ => simpa using hnext

end Server

end SecureCnet
