import SecureCnet.Server.Isolation
import SecureCnet.Server.Replay

/-!
# Replacing the session of an endpoint

A hello with a good token stands for a new session in place of the one its endpoint
has. Two things come in the wrong order for that. The old session is evicted before
the keys are derived and the answer is queued, so a hello that fails there leaves the
endpoint with no session. And the caps are checked before the old session is looked
up, so the very session to be replaced can be the reason to refuse.
-/

namespace SecureCnet

open PairedIndex

namespace Server

variable {C : Crypto} {N : InetNtop} {srv srv' : Server} {connId : UInt64} {ps : PeerSession}
  {source : Endpoint} {hello : ClientHello} {now : UInt64} {resumed : Bool} {draws : Draws}

theorem Indexed.acts (h : srv.Indexed) (l : List Act) : (srv.acts C N l).Indexed := by
  induction l generalizing srv with
  | nil => exact h
  | cons a l ih => exact ih (h.steps (act_steps a srv))

/-- Evicting the session of an endpoint, stale or not, makes the table smaller. -/
theorem Indexed.evicted (hidx : srv.Indexed) (hps : srv.sessions.lookup connId = some ps)
    (hstale : (srv.evictStaleSessions now).SameTable srv') :
    (srv'.evictEndpoint ps.session.endpoint).sessions.lookup connId = none ∧
      (srv'.evictEndpoint ps.session.endpoint).sessions.keys.length <
        srv.sessions.keys.length := by
  have hevict := evictStaleSessions_evicts now srv
  have hgone : ((srv.evictStaleSessions now).evictEndpoint
      ps.session.endpoint).sessions.lookup connId = none := by
    cases hl : (srv.evictStaleSessions now).sessions.lookup connId with
    | none => exact (evictEndpoint_evicts ..).lookup_none hl
    | some ps' =>
      cases hps.symm.trans (hevict.sub _ _ hl)
      exact (hidx.evictStale now).lookup_evictEndpoint_eq hl
  rw [(hstale.evictEndpoint _).sessions]
  exact ⟨hgone, length_keys_lt_of_lookup (hevict.trans (evictEndpoint_evicts ..)).sub hps hgone⟩

/-! ### Hellos that fail -/

/-- A failed hello spares the session of its endpoint exactly when it has no good token. -/
theorem failed_hello_spares_iff (config : ServerConfig) (l : List Act)
    (hps : (({ config } : Server).acts C N l).sessions.lookup connId = some ps) {e : Failure}
    (herr : ((({ config } : Server).acts C N l).handleClientHello C N ps.session.endpoint hello now
      draws).1 = .error e) :
    (∃ ps', ((({ config } : Server).acts C N l).handleClientHello C N ps.session.endpoint hello now
        draws).2.sessions.lookup connId = some ps' ∧ ps'.session.connId = ps.session.connId ∧
        ps'.session.keys = ps.session.keys ∧ ps'.session.state = ps.session.state) ↔
      ¬∃ resumed, (({ config } : Server).acts C N l).Admits C N ps.session.endpoint hello now
        resumed := by
  have hidx : (({ config } : Server).acts C N l).Indexed := (indexed_of_no_sessions rfl rfl).acts l
  generalize ({ config } : Server).acts C N l = srv at hps herr hidx
  have hout := handleClientHello_outcome (C := C) (N := N) ps.session.endpoint hello now draws srv
  generalize srv.handleClientHello C N ps.session.endpoint hello now draws = r at herr hout
  rcases hout.table with ⟨hsame, ⟨-, hok⟩ | hnot⟩ | ⟨resumed, srv₁, -, hadm, hstale, hcap⟩
  · cases hok.symm.trans herr
  · exact iff_of_true ⟨ps, hsame.lookup hps, rfl, rfl, rfl⟩ fun ⟨resumed, h⟩ => hnot resumed h
  rcases hcap with ⟨-, hok, -⟩ | ⟨-, -, h⟩
  · cases hok.symm.trans herr
  refine iff_of_false ?_ (not_not.mpr ⟨resumed, hadm⟩)
  rintro ⟨ps', hps', -⟩
  rcases h.lookup connId with heq | ⟨-, hnone | ⟨hok, -⟩⟩
  · cases (hidx.evicted hps hstale).1.symm.trans (heq.symm.trans hps')
  · cases hnone.symm.trans hps'
  · cases hok.symm.trans herr

/-- A server with room for two packets in its queue, where the retry and the server hello of
`afterHellos` are waiting. -/
def crowdedServer : Server :=
  ({ config := { maxPendingPackets := 2 } } : Server).run .checksum .standard afterHellos

/-- The client asks again, the answer does not fit into the queue, and its session is gone. -/
theorem failed_hello_drops_session :
    validateServerConfig crowdedServer.config = .ok () ∧
      (crowdedServer.sessions.lookup 7).map (fun ps => (ps.session.endpoint, ps.session.state)) =
        some (loopback, .handshaking) ∧
      (crowdedServer.handleClientHello .checksum .standard loopback returningHello 1210
        { connIds := [8] }).1 = fail .queueFull "pending packet queue full" ∧
      (crowdedServer.handleClientHello .checksum .standard loopback returningHello 1210
        { connIds := [8] }).2.sessions.keys = [] := by
  decide +kernel

/-- A listening server with the session 7 of a client that has returned its token. -/
def greeted : List Act :=
  [.listen .ready (Block.zero 32), .receive loopback (helloDatagram firstHello) 1000 {},
    .receive loopback (helloDatagram returningHello) 1200 { connIds := [7] }]

def greetedServer : Server := ({} : Server).acts .checksum .standard greeted

def greetedSession : PeerSession := (greetedServer.sessions.lookup 7).get (by decide +kernel)

def doubleHello : ClientHello :=
  { returningHello with resumptionToken := some ⟨1, 2, 3, Block.zero 16⟩ }

/-- A hello with two tokens fails early enough. -/
theorem failed_hello_spares_doubleHello :
    greetedServer.sessions.lookup 7 = some greetedSession ∧
      ∃ ps', (greetedServer.handleClientHello .checksum .standard greetedSession.session.endpoint
          doubleHello 1210 {}).2.sessions.lookup 7 = some ps' ∧
        ps'.session.connId = greetedSession.session.connId ∧
        ps'.session.keys = greetedSession.session.keys ∧
        ps'.session.state = greetedSession.session.state := by
  have hps : greetedServer.sessions.lookup 7 = some greetedSession := (Option.some_get _).symm
  refine ⟨hps, (failed_hello_spares_iff {} greeted hps rfl).mpr ?_⟩
  rintro ⟨resumed, hadm⟩
  exact hadm.not_both ⟨rfl, rfl⟩

/-! ### Hellos that are refused -/

/-- The hello led to a new session, and the one found under `connId` before is gone. -/
def Replaced (connId : UInt64) (source : Endpoint) (hello : ClientHello) (now : UInt64)
    (srv srv' : Server) : Prop :=
  ∃ a, srv'.history = srv.history ++ [.admitted a] ∧ a.source = source ∧ a.hello = hello ∧
    a.now = now ∧ srv'.findSessionByEndpoint source = some a.peer ∧
    ∀ ps, srv'.sessions.lookup connId = some ps → ps = a.peer

/-- A session set up in place of the one of its endpoint does not make the table grow. -/
theorem CreateOutcome.replaced {r : Result Unit × Server}
    (h : CreateOutcome C N ps.session.endpoint hello resumed now draws srv' r)
    (hok : r.1 = .ok ()) (hidx : srv.Indexed) (hps : srv.sessions.lookup connId = some ps)
    (hstale : (srv.evictStaleSessions now).SameTable srv') (hhist : srv'.history = srv.history) :
    srv.Replaced connId ps.session.endpoint hello now r.2 ∧
      r.2.sessions.keys.length ≤ srv.sessions.keys.length := by
  cases h with
  | keyless e => cases hok
  | unanswered a e => cases hok
  | answered a ha =>
    obtain ⟨hgone, hlt⟩ := hidx.evicted hps hstale
    have hsource : a.source = ps.session.endpoint ∧ a.hello = hello ∧ a.now = now := by
      obtain ⟨keys, -, rfl⟩ := ha
      exact ⟨rfl, rfl, rfl⟩
    have hreply := ha.greet_replies (N := N)
    have hsessions := hreply.sameTable.sessions
    have hindex := hreply.sameTable.endpointToConn
    refine ⟨⟨a, ?_, hsource.1, hsource.2.1, hsource.2.2, ?_, ?_⟩, ?_⟩
    · rw [hreply.history, ← hhist, ← (evictEndpoint_evicts ps.session.endpoint srv').history]
      rfl
    · have hconn : (srv'.seat ps.session.endpoint a).endpointToConn.lookup ps.session.endpoint =
          some a.peer.session.connId := by
        rw [← hsource.1]
        exact AList.lookup_insert _
      unfold findSessionByEndpoint
      rw [hindex, hconn, hsessions]
      exact lookup_seat_self ..
    · intro ps' hps'
      rw [hsessions] at hps'
      rcases of_lookup_insert hps' with ⟨-, hnew⟩ | ⟨-, hold⟩
      · exact hnew
      · cases hgone.symm.trans hold
    · have hins := tally_insert_le (fun _ => true) (srv'.evictEndpoint ps.session.endpoint).sessions
        a.peer.session.connId a.peer
      rw [tally_true, tally_true, if_pos rfl] at hins
      rw [hsessions]
      exact hins.trans hlt

/-- A hello with a good token, of a host that is neither banned nor over its rate, replaces the
session of its endpoint exactly when the caps leave room once stale sessions are gone. -/
theorem reconnect_replaces_iff (config : ServerConfig) (l : List Act)
    (hps : (({ config } : Server).acts C N l).sessions.lookup connId = some ps)
    (htoken : (({ config } : Server).acts C N l).Admits C N ps.session.endpoint hello now resumed)
    (hban : ((({ config } : Server).acts C N l).endpointIsBanned ps.session.endpoint now).1 = false)
    (hlim : ((({ config } : Server).acts C N l).endpointRateLimited ps.session.endpoint now).1 =
      false)
    (hok : ((({ config } : Server).acts C N l).handleClientHello C N ps.session.endpoint hello now
      draws).1 = .ok ()) :
    ((({ config } : Server).acts C N l).Replaced connId ps.session.endpoint hello now
        ((({ config } : Server).acts C N l).handleClientHello C N ps.session.endpoint hello now
          draws).2 ↔
        (({ config } : Server).acts C N l).full ps.session.endpoint now = false) ∧
      ((({ config } : Server).acts C N l).handleClientHello C N ps.session.endpoint hello now
        draws).2.sessions.keys.length ≤ (({ config } : Server).acts C N l).sessions.keys.length := by
  have hidx : (({ config } : Server).acts C N l).Indexed := (indexed_of_no_sessions rfl rfl).acts l
  generalize ({ config } : Server).acts C N l = srv at hps htoken hban hlim hok hidx
  have hchecked := checked_notes ps.session.endpoint now srv
  have hout := handleClientHello_outcome (C := C) (N := N) ps.session.endpoint hello now draws srv
  generalize srv.handleClientHello C N ps.session.endpoint hello now draws = r at hok hout
  cases hout with
  | twoTokens e hboth => cases hok
  | banned h => cases hban.symm.trans h
  | limited _ h => cases hlim.symm.trans h
  | asked token _ hnot | askedAgain token _ hnot | expired _ hnot =>
    exact absurd htoken (hnot resumed)
  | full resumed' reason _ _ hfull =>
    have hreply := queuePlainClose_replies (C := C) now ps.session.endpoint 0 reason
      ((srv.checked ps.session.endpoint now).evictStaleSessions now)
    have hevict := evictStaleSessions_evicts now (srv.checked ps.session.endpoint now)
    refine ⟨iff_of_false ?_ (by simp [hfull]), ?_⟩
    · rintro ⟨a, ha, -⟩
      rw [hreply.history, hevict.history, hchecked.history] at ha
      simpa using congrArg List.length ha
    · rw [hreply.sameTable.sessions, ← hchecked.sameTable.sessions]
      exact length_keys_le_of_lookup hevict.sub
  | created resumed' _ _ hfull _ h =>
    have hevict := evictStaleSessions_evicts now (srv.checked ps.session.endpoint now)
    have hrep := h.replaced hok hidx hps (hchecked.sameTable.evictStale now)
      (hevict.history.trans hchecked.history)
    exact ⟨iff_of_true hrep.1 hfull, hrep.2⟩

/-- A server that allows one session per host, with the session 7. -/
def narrowServer : Server :=
  ({ config := { abuse := { maxSessionsPerIp := 1 } } } : Server).run .checksum .standard
    afterHellos

/-- The client of that session returns with a good token and is refused because of it. -/
theorem reconnect_refused :
    validateServerConfig narrowServer.config = .ok () ∧
      (narrowServer.sessions.lookup 7).map (fun ps => ps.session.endpoint) = some loopback ∧
      validateRetryToken .checksum .standard narrowServer.cookieSecret loopback returningHello
        returnedToken 1210 = .ok () ∧
      (narrowServer.endpointIsBanned loopback 1210).1 = false ∧
      (narrowServer.endpointRateLimited loopback 1210).1 = false ∧
      (narrowServer.handleClientHello .checksum .standard loopback returningHello 1210
        { connIds := [8] }).1 = .ok () ∧
      (narrowServer.handleClientHello .checksum .standard loopback returningHello 1210
        { connIds := [8] }).2.sessions.keys = [7] := by
  decide +kernel

/-- Where hosts may have more than one session, the same hello replaces it. -/
theorem reconnect_replaces_greeted :
    greetedServer.sessions.lookup 7 = some greetedSession ∧
      greetedServer.Replaced 7 greetedSession.session.endpoint returningHello 1210
        (greetedServer.handleClientHello .checksum .standard greetedSession.session.endpoint
          returningHello 1210 { connIds := [8] }).2 := by
  have hps : greetedServer.sessions.lookup 7 = some greetedSession := (Option.some_get _).symm
  have hvalid : validateRetryToken .checksum .standard greetedServer.cookieSecret
      greetedSession.session.endpoint returningHello returnedToken 1210 = .ok () := by
    decide +kernel
  have hadmits : greetedServer.Admits .checksum .standard greetedSession.session.endpoint
      returningHello 1210 false := ⟨rfl, returnedToken, rfl, hvalid⟩
  exact ⟨hps, (reconnect_replaces_iff {} greeted hps hadmits (by decide +kernel)
    (by decide +kernel) (by decide +kernel)).1.mpr (by decide +kernel)⟩

/-! ### Hellos that are let in -/

variable {source : Endpoint} {hello : ClientHello} {resumed : Bool} {now : UInt64} {draws : Draws}

/-- The hello with which a client returns the token made for it at `issuedAtMs`. -/
def returning (C : Crypto) (N : InetNtop) (srv : Server) (source : Endpoint) (hello : ClientHello)
    (issuedAtMs : UInt64) : ClientHello :=
  { hello with
    retryToken := some (makeRetryToken C N srv.cookieSecret source hello issuedAtMs)
    resumptionToken := none }

theorem admits_returning_iff {issuedAtMs : UInt64} :
    srv.Admits C N source (srv.returning C N source hello issuedAtMs) now resumed ↔
      resumed = false ∧ issuedAtMs ≤ now ∧ now - issuedAtMs ≤ NetConfig.retryTokenLifetimeMs := by
  cases resumed with
  | true => simp [Admits, returning]
  | false =>
    unfold Admits
    simp only [returning, Option.some.injEq, exists_eq_left', validateRetryToken_eq_ok]
    simp [makeRetryToken]

/-- The hello of a source led to a session, which is the one of its endpoint. -/
def LetIn (source : Endpoint) (srv srv' : Server) : Prop :=
  ∃ a, srv'.history = srv.history ++ [.admitted a] ∧ srv'.findSessionByEndpoint source = some a.peer

/-- A client that returns the token it was given gets a session exactly while the token is fresh,
if its host passes the checks, the caps leave room, and the answer can be queued. -/
theorem returned_token_let_in_iff (issuedAtMs : UInt64) (hpass : srv.Passes source now)
    (hroom : srv.full source now = false)
    (hok : (srv.handleClientHello C N source (srv.returning C N source hello issuedAtMs) now
      draws).1 = .ok ()) :
    srv.LetIn source (srv.handleClientHello C N source
        (srv.returning C N source hello issuedAtMs) now draws).2 ↔
      issuedAtMs ≤ now ∧ now - issuedAtMs ≤ NetConfig.retryTokenLifetimeMs := by
  have hchecked := (checked_notes source now srv).history
  have hnone : ∀ {srv' : Server}, srv'.history = srv.history → ¬srv.LetIn source srv' := by
    rintro srv' hsame ⟨a, ha, -⟩
    rw [hsame] at ha
    simpa using congrArg List.length ha
  have hout := handleClientHello_outcome (C := C) (N := N) source
    (srv.returning C N source hello issuedAtMs) now draws srv
  generalize srv.handleClientHello C N source (srv.returning C N source hello issuedAtMs) now
    draws = r at hok hout
  cases hout with
  | twoTokens e hboth => cases hok
  | banned h => cases hpass.banned.symm.trans h
  | limited _ h => cases hpass.limited.symm.trans h
  | asked token _ hnot | askedAgain token _ hnot =>
    refine iff_of_false (hnone ?_) fun h => hnot false (admits_returning_iff.mpr ⟨rfl, h⟩)
    exact (queueRetry_replies ..).history.trans hchecked
  | expired _ hnot =>
    refine iff_of_false (hnone ?_) fun h => hnot false (admits_returning_iff.mpr ⟨rfl, h⟩)
    exact (queuePlainClose_replies ..).history.trans hchecked
  | full _ _ _ _ h => cases hroom.symm.trans h
  | created _ _ hadm _ _ h =>
    refine iff_of_true ?_ (admits_returning_iff.mp hadm).2
    cases h with
    | keyless e => cases hok
    | unanswered a e => cases hok
    | answered a ha =>
      have hreply := ha.greet_replies (N := N)
      refine ⟨a, ?_, ?_⟩
      · have hevicted : (((srv.checked source now).evictStaleSessions now).evictEndpoint
            source).history = srv.history :=
          ((evictEndpoint_evicts source _).history.trans
            (evictStaleSessions_evicts now _).history).trans hchecked
        rw [hreply.history, ← hevicted]
        rfl
      · have hconn : ((srv.checked source now).evictStaleSessions now |>.seat source
            a).endpointToConn.lookup source = some a.peer.session.connId := by
          obtain ⟨keys, -, rfl⟩ := ha
          exact AList.lookup_insert _
        unfold findSessionByEndpoint
        rw [hreply.sameTable.endpointToConn, hconn, hreply.sameTable.sessions]
        exact lookup_seat_self ..

/-- The client of `firstHello` comes back in time. -/
theorem returned_token_let_in :
    listening.LetIn loopback (listening.handleClientHello .checksum .standard loopback
      (listening.returning .checksum .standard loopback firstHello 1000) 2500
        { connIds := [7] }).2 :=
  (returned_token_let_in_iff 1000 ⟨by decide +kernel, by decide +kernel⟩ (by decide +kernel)
    (by decide +kernel)).mpr (by decide)

end Server

end SecureCnet
