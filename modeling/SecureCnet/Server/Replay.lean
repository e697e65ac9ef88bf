import SecureCnet.Server.Datagram

/-!
# Repeated hellos

A token stays valid for a while, and nothing records that it has been used. A further
copy of a hello is handled like a reconnect: unless the host is banned, over its rate
or the caps are reached, the session of the endpoint is replaced.
-/

namespace SecureCnet

namespace Server

variable {C : Crypto} {N : InetNtop} {srv srv' : Server} {connId : UInt64} {ps : PeerSession}
  {source : Endpoint} {datagram : Bytes} {hello : ClientHello} {now : UInt64} {resumed : Bool}

/-- A hello of the endpoint is turned away whatever its token. -/
def refusesHello (source : Endpoint) (now : UInt64) (srv : Server) : Bool :=
  (srv.endpointIsBanned source now).1 || (srv.endpointRateLimited source now).1 ||
    srv.full source now

/-- The datagram is a well-formed hello. -/
def IsHello (datagram : Bytes) (hello : ClientHello) : Prop :=
  ∃ packet, parsePacket datagram = .ok packet ∧ packet.h.kind = PacketKind.handshake.code ∧
    readHandshake packet = .ok hello

instance : Decidable (IsHello datagram hello) :=
  match hp : parsePacket datagram with
  | .error e => .isFalse fun ⟨packet, h, _⟩ => by
      rw [hp] at h
      cases h
  | .ok packet => decidable_of_iff (packet.h.kind = PacketKind.handshake.code ∧
      readHandshake packet = .ok hello)
      ⟨fun h => ⟨packet, hp, h⟩, fun ⟨packet', h, hrest⟩ => by
        rw [hp] at h
        cases h
        exact hrest⟩

theorem refusesHello_eq_false :
    srv.refusesHello source now = false ↔
      srv.Passes source now ∧ srv.full source now = false := by
  unfold refusesHello
  rw [Bool.or_eq_false_iff, Bool.or_eq_false_iff]
  exact and_congr_left' ⟨fun h => ⟨h.1, h.2⟩, fun h => ⟨h.banned, h.limited⟩⟩

/-- The table after a hello is as handling the hello leaves it. -/
theorem Indexed.receive_hello (hidx : srv.Indexed) (hd : IsHello datagram hello)
    (now : UInt64) (draws : Draws) :
    ∃ srv₀ r, srv.SameTable srv₀ ∧ srv₀.abuseStateFor source = srv.abuseStateFor source ∧
      HelloOutcome C N source hello now draws srv₀ r ∧
      r.2.SameTable (srv.receive C N source datagram now draws) := by
  obtain ⟨packet, hparse, hkind, hread⟩ := hd
  have hnote := notePreauthReceive_sameTable source datagram.length now srv
  have hstate : (srv.notePreauthReceive source datagram.length now).abuseStateFor source =
    srv.abuseStateFor source := rfl
  have hreceive : srv.receive C N source datagram now draws =
      (srv.notePreauthReceive source datagram.length now).handlePacket C N source packet now
        draws := by
    have htraffic : ¬srv.isSessionTraffic packet = true := by simp [isSessionTraffic, hkind]
    unfold receive
    rw [hparse]
    exact congrArg (handlePacket C N source packet now draws) (if_neg htraffic)
  rw [hreceive]
  generalize srv.notePreauthReceive source datagram.length now = srv₀ at hnote hstate
  have hban := hnote.trans (past_notes source packet now srv₀).sameTable
  have hstate' := (abuseStateFor_past source packet now srv₀).trans hstate
  rcases handlePacket_outcome (C := C) (N := N) source packet now draws srv₀ with
    ⟨hbanned, heq⟩ | ⟨-, h⟩
  · exact ⟨srv₀, _, hnote, hstate, .banned hbanned, heq ▸ .refl _⟩
  · generalize srv₀.handlePacket C N source packet now draws = srv' at h
    cases h with
    | faulty e _ hread' => cases hread.symm.trans hread'
    | greeted hello' _ hread' h =>
      cases hread.symm.trans hread'
      exact ⟨_, _, hban, hstate', h, .refl _⟩
    | unwelcome hello' e _ hread' h =>
      cases hread.symm.trans hread'
      have hafter := (hidx.sameTable hban).steps (h.steps trivial (H := fun _ _ _ => True))
      exact ⟨_, _, hban, hstate', h, errorChain_sameTable hafter.lookup_zero e⟩
    | nameless e hother | unknown hother | taken ps q hother | failed ps q e hother =>
      exact absurd hkind hother

theorem isStale_of_live (config : ServerConfig) (now : UInt64) {s : Session}
    (h : s.state = .handshaking ∨ s.state = .established) : isStale config now s = false := by
  rcases h with h | h <;> simp [isStale, h]

/-- A refused hello leaves the session of its endpoint as it is. -/
theorem Indexed.lookup_of_refuses (hidx : srv.Indexed)
    (hps : srv.sessions.lookup connId = some ps)
    (hlive : ps.session.state = .handshaking ∨ ps.session.state = .established)
    (hd : IsHello datagram hello) (hrefuse : srv.refusesHello source now = true) (draws : Draws) :
    (srv.receive C N source datagram now draws).sessions.lookup connId = some ps := by
  obtain ⟨srv₀, r, hsame₀, hstate, hout, hsame⟩ :=
    hidx.receive_hello (C := C) (N := N) hd now draws
  rw [hsame.sessions]
  rcases hout.table with ⟨hsame', -⟩ | ⟨resumed', srv₁, hpass, -, hstale, hcap⟩
  · rw [(hsame₀.trans hsame').sessions, hps]
  · have hstay := lookup_evictStaleSessions (hsame₀.sessions ▸ hps)
      (isStale_of_live srv₀.config now hlive)
    rcases hcap with ⟨-, -, hsame'⟩ | ⟨hfull, -⟩
    · rw [(hstale.trans hsame').sessions, hstay]
    · have hno := refusesHello_eq_false.mpr ⟨hpass.congr hstate.symm hsame₀.rules.config.symm,
        (full_congr source now hsame₀).symm.trans hfull⟩
      cases hno.symm.trans hrefuse

/-- A hello that is not refused replaces the session, under another id unless chance has it. -/
theorem Indexed.lookup_of_not_refuses (hidx : srv.Indexed)
    (hps : srv.sessions.lookup connId = some ps)
    (hlive : ps.session.state = .handshaking ∨ ps.session.state = .established)
    (hd : IsHello datagram hello)
    (h : srv.Admits C N ps.session.endpoint hello now resumed)
    (hrefuse : srv.refusesHello ps.session.endpoint now = false) :
    ∃ draws, (srv.receive C N ps.session.endpoint datagram now draws).sessions.lookup connId =
      none := by
  obtain ⟨hpass, hfull⟩ := refusesHello_eq_false.mp hrefuse
  -- A number no session has, drawn first, becomes the id of the new session.
  let spare := (srv.evictStaleSessions now).allocateConnId []
  refine ⟨{ connIds := [spare] }, ?_⟩
  obtain ⟨srv₀, r, hsame₀, hstate, hout, hsame⟩ :=
    hidx.receive_hello (C := C) (N := N) hd now { connIds := [spare] }
  rw [hsame.sessions]
  rcases hout.table with ⟨-, ⟨hnot, -⟩ | hnot⟩ | ⟨resumed', srv₁, -, -, hstale, hcap⟩
  · exact absurd (hpass.congr hstate hsame₀.rules.config) hnot
  · exact absurd (h.sameRules hsame₀.rules) (hnot resumed)
  rcases hcap with ⟨hfull', -⟩ | ⟨-, hroom, hout⟩
  · cases hfull'.symm.trans ((full_congr ps.session.endpoint now hsame₀).trans hfull)
  have hevict := (hsame₀.evictStale now).trans hstale
  have hstay := hevict.sessions ▸ lookup_evictStaleSessions hps
    (isStale_of_live srv.config now hlive)
  have hspare : srv₁.usable spare = true := by
    have husable := allocateConnId_usable (srv.evictStaleSessions now) []
      (hevict.sessions ▸ hroom.length_lt)
    rw [usable_eq_true] at husable ⊢
    rwa [hevict.sessions]
  have hid : (srv₁.evictEndpoint ps.session.endpoint).allocateConnId [spare] = spare := by
    have husable : (srv₁.evictEndpoint ps.session.endpoint).usable spare = true := by
      obtain ⟨hnz, hnone⟩ := usable_eq_true.mp hspare
      exact usable_eq_true.mpr ⟨hnz, (evictEndpoint_evicts ..).lookup_none hnone⟩
    simp [allocateConnId, husable]
  rw [hout.lookup_ne, ((hidx.evictStale now).sameTable hevict).lookup_evictEndpoint_eq hstay]
  rw [hid]
  rintro rfl
  cases (usable_eq_true.mp hspare).2.symm.trans hstay

/-- A copy of a hello whose token is still good, from the endpoint of a live session, leaves that
session in place for every outcome of the random draws exactly when it is refused. -/
theorem hello_copy_keeps_session_iff (config : ServerConfig) (ops : List Op) (resumed : Bool)
    (hps : (({ config } : Server).run C N ops).sessions.lookup connId = some ps)
    (hlive : ps.session.state = .handshaking ∨ ps.session.state = .established)
    (hd : IsHello datagram hello)
    (htoken : (({ config } : Server).run C N ops).Admits C N ps.session.endpoint hello now
      resumed) :
    (∀ draws, ∃ ps', ((({ config } : Server).run C N ops).receive C N ps.session.endpoint datagram
        now draws).sessions.lookup connId = some ps' ∧ ps'.session.connId = ps.session.connId ∧
        ps'.session.keys = ps.session.keys ∧ ps'.session.state = ps.session.state) ↔
      (({ config } : Server).run C N ops).refusesHello ps.session.endpoint now = true := by
  have hidx : (({ config } : Server).run C N ops).Indexed := (indexed_of_no_sessions rfl rfl).run ops
  constructor
  · intro hkeeps
    by_contra hno
    obtain ⟨draws, hnone⟩ :=
      hidx.lookup_of_not_refuses hps hlive hd htoken (Bool.eq_false_iff.mpr hno)
    obtain ⟨ps', hps', -⟩ := hkeeps draws
    rw [hnone] at hps'
    cases hps'
  · intro hrefuse draws
    exact ⟨ps, hidx.lookup_of_refuses hps hlive hd hrefuse draws, rfl, rfl, rfl⟩

/-- The first hello is answered with the token the second one carries; ten milliseconds later a
copy of the second hello ends the session it created. -/
theorem hello_copy_replaces_session :
    let asked := listening.receive .checksum .standard loopback (helloDatagram firstHello) 1000 {}
    let srv := ({} : Server).run .checksum .standard afterHellos
    let copied := srv.receive .checksum .standard loopback (helloDatagram returningHello) 1210
      { connIds := [8] }
    (asked.net.pending.map fun pkt => (parsePacket pkt.bytes).bind fun p => readRetry p.payload) =
        [.ok returnedToken] ∧
      (srv.sessions.lookup 7).map (fun ps => ps.session.state) = some .handshaking ∧
      validateRetryToken .checksum .standard srv.cookieSecret loopback returningHello returnedToken
        1210 = .ok () ∧
      copied.sessions.lookup 7 = none ∧ copied.sessions.keys = [8] := by
  decide +kernel

/-- A server that takes two hellos of a host per second, after these two. -/
def limitedServer : Server :=
  ({ config := { abuse := { perIpHandshakeRateLimitPerSecond := 2 } } } : Server).run .checksum
    .standard afterHellos

def limitedSession : PeerSession := (limitedServer.sessions.lookup 7).get (by decide +kernel)

/-- There the same copy is turned away. -/
theorem hello_copy_keeps_session_limited :
    limitedServer.sessions.lookup 7 = some limitedSession ∧
      ∀ draws, ∃ ps', (limitedServer.receive .checksum .standard limitedSession.session.endpoint
        (helloDatagram returningHello) 1210 draws).sessions.lookup 7 = some ps' ∧
        ps'.session.connId = limitedSession.session.connId ∧
        ps'.session.keys = limitedSession.session.keys ∧
        ps'.session.state = limitedSession.session.state := by
  have hps : limitedServer.sessions.lookup 7 = some limitedSession := (Option.some_get _).symm
  have hvalid : validateRetryToken .checksum .standard limitedServer.cookieSecret
      limitedSession.session.endpoint returningHello returnedToken 1210 = .ok () := by
    decide +kernel
  exact ⟨hps, (hello_copy_keeps_session_iff _ afterHellos false hps
    (Or.inl (by decide +kernel)) (by decide +kernel) ⟨rfl, returnedToken, rfl, hvalid⟩).mpr
    (by decide +kernel)⟩

end Server

end SecureCnet
