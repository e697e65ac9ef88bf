import SecureCnet.Server.Datagram
import SecureCnet.Session.Failures

/-!
# Sessions of other endpoints

A datagram of one endpoint should not touch the sessions of another. It does in one
case: the error chain behind a faulty handshake packet closes the session its header
names without looking at where the packet came from.
-/

namespace SecureCnet

/-- What a session is, apart from its packet numbers and timers. -/
structure Session.SameInside (s s' : Session) : Prop where
  state : s'.state = s.state
  closeReason : s'.closeReason = s.closeReason
  keys : s'.keys = s.keys
  packetWindow : s'.packetWindow = s.packetWindow
  reliable : s'.reliable = s.reliable
  orderedReliable : s'.orderedReliable = s.orderedReliable
  ordered : s'.ordered = s.ordered
  reassembler : s'.reassembler = s.reassembler

theorem Session.SameInside.refl (s : Session) : s.SameInside s :=
  ⟨rfl, rfl, rfl, rfl, rfl, rfl, rfl, rfl⟩

namespace Party

variable {C : Crypto}

/-- Closing leaves a session as it is when it is already closing for the same reason. -/
theorem closeSession_sameInside_iff (now : UInt64) (reason : CloseReason) (p : Party) :
    p.session.SameInside (p.closeSession C now reason).session ↔
      (p.session.state = .closing ∨ p.session.state = .closed) ∧
        p.session.closeReason = reason := by
  have hstate := closeSession_state (C := C) now reason p
  obtain ⟨n, st, es, net, h, -⟩ := closeSession_eq (C := C) now reason p
  rw [h] at hstate ⊢
  dsimp only at hstate
  constructor
  · intro hsame
    refine ⟨?_, hsame.closeReason.symm⟩
    have hst : st = p.session.state := hsame.state
    rw [hst] at hstate
    split_ifs at hstate with hclosed
    · exact Or.inr hclosed
    · exact Or.inl hstate
  · rintro ⟨hend, hreason⟩
    refine ⟨?_, hreason.symm, rfl, rfl, rfl, rfl, rfl, rfl⟩
    rcases hend with hc | hc <;> simpa [hc] using hstate

end Party

namespace Server

variable {C : Crypto} {N : InetNtop} {srv srv' : Server} {connId : UInt64} {ps : PeerSession}
  {source : Endpoint} {packet : PacketView} {now : UInt64}

/-- The reason a faulty handshake packet closes the session it names with. -/
def faultReason (packet : PacketView) (srv : Server) : Option CloseReason :=
  match readHandshake packet with
  | .ok _ => none
  | .error e => Party.chainReason (.server srv.config) e.code

/-- A handshake packet that names a session is always at fault. -/
theorem faultReason_isSome (h : packet.h.connId ≠ 0) (srv : Server) :
    ∃ e reason, readHandshake packet = .error e ∧ srv.faultReason packet = some reason ∧
      Party.chainReason (.server srv.config) e.code = some reason := by
  have hmal : ∀ e : Failure, e.code = .truncated ∨ e.code = .badPacket ∨ e.code = .protocolError →
      ∃ reason, Party.chainReason (.server srv.config) e.code = some reason := by
    rintro e (he | he | he) <;> rw [he] <;> exact ⟨_, rfl⟩
  have herr : ∃ e : Failure, readHandshake packet = .error e ∧
      (e.code = .truncated ∨ e.code = .badPacket ∨ e.code = .protocolError) := by
    unfold readHandshake
    split_ifs
    · exact ⟨_, rfl, Or.inr (Or.inr rfl)⟩
    · exact ⟨_, rfl, Or.inr (Or.inl rfl)⟩
    · have hread := readClientHello_malformed packet.payload
      cases hr : readClientHello packet.payload with
      | error e =>
        rcases hread e hr with he | he
        · exact ⟨e, rfl, Or.inl he⟩
        · exact ⟨e, rfl, Or.inr (Or.inl he)⟩
      | ok hello =>
        simp only [Result.ok_bind]
        exact ⟨_, rfl, Or.inr (Or.inr rfl)⟩
  obtain ⟨e, he, hcode⟩ := herr
  obtain ⟨reason, hreason⟩ := hmal e hcode
  refine ⟨e, reason, he, ?_, hreason⟩
  unfold faultReason
  rw [he]
  exact hreason

/-- The session of the given id is still the one of its endpoint and unchanged, or it was stale
and is gone. -/
structure Isolated (srv : Server) (connId : UInt64) (ps : PeerSession) (now : UInt64)
    (srv' : Server) : Prop where
  unchanged : ∀ ps', srv'.sessions.lookup connId = some ps' →
    ps'.session.endpoint = ps.session.endpoint → ps.session.SameInside ps'.session
  kept : (∃ ps', srv'.sessions.lookup connId = some ps' ∧
    ps'.session.endpoint = ps.session.endpoint) ∨ isStale srv.config now ps.session = true

theorem Isolated.of_lookup (h : srv'.sessions.lookup connId = some ps) :
    srv.Isolated connId ps now srv' where
  unchanged ps' hps' _ := by
    rw [h] at hps'
    cases hps'
    exact .refl _
  kept := Or.inl ⟨ps, h, rfl⟩

variable {hello : ClientHello} {resumed : Bool} {draws : Draws} {r : Result Unit × Server}
  {ps' : PeerSession}

theorem CreateOutcome.of_lookup (h : CreateOutcome C N source hello resumed now draws srv r)
    (hps' : r.2.sessions.lookup connId = some ps') :
    srv.sessions.lookup connId = some ps' ∨ ps'.session.endpoint = source := by
  rcases h.lookup connId with heq | ⟨-, hnone | ⟨-, a, ha, heq⟩⟩
  · exact Or.inl ((evictEndpoint_evicts source srv).sub _ _ (heq.symm.trans hps'))
  · cases hnone.symm.trans hps'
  · cases heq.symm.trans hps'
    exact Or.inr ha.peer_endpoint

theorem HelloOutcome.of_lookup (h : HelloOutcome C N source hello now draws srv r)
    (hps' : r.2.sessions.lookup connId = some ps') :
    srv.sessions.lookup connId = some ps' ∨ ps'.session.endpoint = source := by
  have hsub := (evictStaleSessions_evicts now srv).sub connId ps'
  rcases h.table with ⟨hsame, -⟩ | ⟨resumed, srv₁, -, -, hstale, ⟨-, -, hsame⟩ | ⟨-, -, h⟩⟩
  · exact Or.inl (hsame.sessions ▸ hps')
  · exact Or.inl (hsub ((hstale.trans hsame).sessions ▸ hps'))
  · exact (h.of_lookup hps').imp_left fun hold => hsub (hstale.sessions ▸ hold)

theorem HelloOutcome.isolated (h : HelloOutcome C N source hello now draws srv r)
    (hidx : srv.Indexed) (hps : srv.sessions.lookup connId = some ps)
    (hne : ps.session.endpoint ≠ source) : srv.Isolated connId ps now r.2 where
  unchanged ps' hps' he := by
    rcases h.of_lookup hps' with hold | hnew
    · cases hps.symm.trans hold
      exact .refl _
    · exact absurd (he.symm.trans hnew) hne
  kept := by
    cases hstale : isStale srv.config now ps.session with
    | true => exact Or.inr rfl
    | false => exact Or.inl ⟨ps, h.lookup_ne hidx hps hne hstale, rfl⟩

theorem Isolated.congr {srv₀ srv₁ : Server} (h : srv.Isolated connId ps now srv')
    (hconfig : srv₀.config = srv.config)
    (hlook : srv₁.sessions.lookup connId = srv'.sessions.lookup connId) :
    srv₀.Isolated connId ps now srv₁ := by
  refine ⟨?_, ?_⟩
  · rw [hlook]
    exact h.unchanged
  · rw [hlook, hconfig]
    exact h.kept

/-- The packet does not reach the session, or does not change it any more. -/
def spares (source : Endpoint) (packet : PacketView) (now : UInt64) (connId : UInt64)
    (ps : PeerSession) (srv : Server) : Bool :=
  (srv.endpointIsBanned source now).1 || packet.h.kind ≠ PacketKind.handshake.code ||
    packet.h.connId ≠ connId ||
    ((ps.session.state = .closing || ps.session.state = .closed) &&
      srv.faultReason packet = some ps.session.closeReason)

/-- The same for a datagram; what does not parse reaches no session. -/
def sparesDatagram (source : Endpoint) (datagram : Bytes) (now : UInt64) (connId : UInt64)
    (ps : PeerSession) (srv : Server) : Bool :=
  match parsePacket datagram with
  | .error _ => true
  | .ok packet => srv.spares source packet now connId ps

theorem errorChain_eq {e : Failure} {reason : CloseReason}
    (hreason : Party.chainReason (.server srv.config) e.code = some reason) (hid : connId ≠ 0) :
    srv.errorChain C source connId now e =
      (srv.noteInvalidPacket source now).closeSession C connId now reason := by
  unfold errorChain
  simp only [hreason]
  rw [if_neg (fun h => hid h.2)]

/-- A faulty handshake packet that names a session leaves it as it is only when it is already
closing for that reason. -/
theorem isolated_errorChain_iff (source : Endpoint) (now : UInt64)
    (hps : srv.sessions.lookup connId = some ps) (hid : connId ≠ 0) {e : Failure} {reason : CloseReason}
    (hreason : Party.chainReason (.server srv.config) e.code = some reason) :
    srv.Isolated connId ps now (srv.errorChain C source connId now e) ↔
      (ps.session.state = .closing ∨ ps.session.state = .closed) ∧
        ps.session.closeReason = reason := by
  have hnote := (noteInvalidPacket_notes source now srv).sameTable
  rw [errorChain_eq hreason hid]
  generalize srv.noteInvalidPacket source now = srv₁ at hnote
  have hps₁ := hnote.lookup hps
  have hcont := (Party.closeSession_steps (C := C) (A := fun _ _ => True) now reason
    (srv₁.party connId ps)).continues ⟨srv₁.config, rfl⟩
  refine Iff.trans ?_
    (Party.closeSession_sameInside_iff (C := C) now reason (srv₁.party connId ps))
  unfold closeSession
  rw [hps₁]
  constructor
  · intro hiso
    exact hiso.unchanged _ (AList.lookup_insert _) hcont.endpoint
  · intro hsame
    refine ⟨?_, Or.inl ⟨_, AList.lookup_insert _, hcont.endpoint⟩⟩
    intro ps' hps' _
    obtain rfl := Option.some.inj ((AList.lookup_insert _).symm.trans hps')
    exact hsame

/-- What a packet of another endpoint does to a session. -/
theorem Indexed.isolated_handlePacket_iff (h : srv.Indexed) (now : UInt64)
    (hps : srv.sessions.lookup connId = some ps) (hne : ps.session.endpoint ≠ source)
    (packet : PacketView) (draws : Draws) :
    srv.Isolated connId ps now (srv.handlePacket C N source packet now draws) ↔
      srv.spares source packet now connId ps = true := by
  have hnz := h.nonzero hps
  have hban := (past_notes source packet now srv).sameTable
  unfold spares
  rcases handlePacket_outcome (C := C) (N := N) source packet now draws srv with
    ⟨hbanned, heq⟩ | ⟨hbanned, hout⟩ <;> rw [hbanned]
  · rw [heq]
    simpa using Isolated.of_lookup ((endpointIsBanned_notes ..).sameTable.lookup hps)
  generalize srv.past source packet now = srv₁ at hban hout
  generalize srv.handlePacket C N source packet now draws = srv' at hout
  have hps₁ := hban.lookup hps
  have hidx₁ := h.sameTable hban
  have hchain := fun connId' (hne' : connId ≠ connId') e srv' =>
    lookup_errorChain_ne (C := C) source now hne' e srv'
  by_cases hhit : packet.h.kind = PacketKind.handshake.code ∧ packet.h.connId = connId
  · -- The header names the session: the packet is at fault and the chain closes it.
    obtain ⟨hkind, rfl⟩ := hhit
    obtain ⟨e, reason, hread, hfault, hreason⟩ := faultReason_isSome hnz srv
    have hiff := isolated_errorChain_iff (C := C) source now hps₁ hnz
      (hban.rules.config ▸ hreason)
    cases hout with
    | faulty e' _ hread' =>
      cases hread.symm.trans hread'
      rw [hfault]
      simp only [hkind, ne_eq, not_true_eq_false, decide_false, Bool.false_or,
        Bool.and_eq_true, Bool.or_eq_true, decide_eq_true_eq, Option.some.injEq]
      rw [eq_comm (a := reason), ← hiff]
      exact ⟨fun hiso => hiso.congr hban.rules.config rfl,
        fun hiso => hiso.congr hban.rules.config.symm rfl⟩
    | greeted hello _ hread' | unwelcome hello e _ hread' => cases hread.symm.trans hread'
    | nameless e hother | unknown hother | taken ps q hother | failed ps q e hother =>
      exact absurd hkind hother
  · have hid : ∀ ps', srv₁.sessions.lookup packet.h.connId = some ps' →
        ps'.session.endpoint = source → connId ≠ packet.h.connId := by
      rintro ps' hps' hsource rfl
      cases hps₁.symm.trans hps'
      exact hne hsource
    refine iff_of_true ?_ ?_
    · cases hout with
      | faulty e hkind =>
        exact .of_lookup ((hchain _ (fun hid => hhit ⟨hkind, hid.symm⟩) e srv₁).trans hps₁)
      | greeted hello _ _ hout =>
        exact (hout.isolated hidx₁ hps₁ hne).congr hban.rules.config.symm rfl
      | unwelcome hello e _ _ hout =>
        exact (hout.isolated hidx₁ hps₁ hne).congr hban.rules.config.symm (hchain 0 hnz e _)
      | nameless e => exact .of_lookup ((hchain 0 hnz e srv₁).trans hps₁)
      | unknown =>
        exact .of_lookup ((queuePlainClose_replies ..).sameTable.lookup hps₁)
      | taken ps' q _ _ hps' hsource =>
        exact .of_lookup ((lookup_store_ne (hid ps' hps' hsource) ps' q srv₁).trans hps₁)
      | failed ps' q e _ _ hps' hsource =>
        have hid := hid ps' hps' hsource
        exact .of_lookup (((hchain _ hid e _).trans (lookup_store_ne hid ps' q srv₁)).trans hps₁)
    · rw [not_and_or] at hhit
      rcases hhit with hkind | hid
      · simp [hkind]
      · simp [hid]

/-- In every reachable state, a datagram leaves the session of another endpoint alone exactly when
it is no handshake packet that names the session, or comes too late to matter. -/
theorem receive_isolated_iff (config : ServerConfig) (ops : List Op)
    (hps : (({ config } : Server).run C N ops).sessions.lookup connId = some ps)
    (hne : ps.session.endpoint ≠ source) (datagram : Bytes) (draws : Draws) :
    (({ config } : Server).run C N ops).Isolated connId ps now
        ((({ config } : Server).run C N ops).receive C N source datagram now draws) ↔
      (({ config } : Server).run C N ops).sparesDatagram source datagram now connId ps = true := by
  have hidx : (({ config } : Server).run C N ops).Indexed := (indexed_of_no_sessions rfl rfl).run ops
  generalize ({ config } : Server).run C N ops = srv at hps hidx
  have hnote := notePreauthReceive_sameTable source datagram.length now srv
  unfold receive sparesDatagram
  cases hp : parsePacket datagram with
  | error e =>
    have hsame : ∀ srv₁, srv.SameTable srv₁ → srv.Isolated connId ps now srv₁ := fun srv₁ h =>
      .of_lookup (h.sessions ▸ hps)
    dsimp only
    split_ifs
    · simpa using hsame _ (hnote.trans (queuePlainClose_replies ..).sameTable)
    · simpa using hsame _ (hnote.trans (noteInvalidPacket_notes ..).sameTable)
  | ok packet =>
    dsimp only
    split_ifs
    · exact hidx.isolated_handlePacket_iff now hps hne packet draws
    · have hiff := (hidx.sameTable hnote).isolated_handlePacket_iff (C := C) (N := N) now hps
        hne packet draws
      have hspares : (srv.notePreauthReceive source datagram.length now).spares source packet now
        connId ps = srv.spares source packet now connId ps := rfl
      rw [← hspares, ← hiff]
      exact ⟨fun h => h.congr rfl rfl, fun h => h.congr rfl rfl⟩

/-- A handshake packet with an unknown type byte that names the given session. -/
def faultyHandshake (connId : UInt64) : Bytes :=
  (buildPacket .standIn .handshake false [0xFF] connId 1 (Block.zero 32)).toOption.getD []

/-- From any host it closes the session of another. -/
theorem faulty_handshake_closes_foreign_session :
    let srv := ({} : Server).run .checksum .standard afterHellos
    let hit := srv.receive .checksum .standard longHost (faultyHandshake 7) 1210 {}
    (srv.sessions.lookup 7).map (fun ps => (ps.session.endpoint, ps.session.state)) =
        some (loopback, .handshaking) ∧
      (hit.sessions.lookup 7).map (fun ps => (ps.session.state, ps.session.closeReason)) =
        some (.closing, .invalidPacket) := by
  decide +kernel

/-- The session of the client after its two hellos. -/
def openSession : PeerSession :=
  ((({} : Server).run .checksum .standard afterHellos).sessions.lookup 7).get (by decide +kernel)

/-- A faulty packet that names another id does no harm. -/
theorem faulty_handshake_misses :
    (({} : Server).run .checksum .standard afterHellos).Isolated 7 openSession 1210
      ((({} : Server).run .checksum .standard afterHellos).receive .checksum .standard longHost
        (faultyHandshake 8) 1210 {}) := by
  exact (receive_isolated_iff {} afterHellos (Option.some_get _).symm (by decide +kernel) _ _).mpr
    (by decide +kernel)

end Server

end SecureCnet
