import SecureCnet.Library.PairedIndex
import SecureCnet.Server.Operations

/-!
# What handling a datagram comes to

The code behind a datagram branches on tokens, bans, caps and the session table. Each
of its functions is taken apart here once: the outcomes are listed with what was found
on the way, and a property of the server is then checked outcome by outcome.
-/

namespace SecureCnet

open PairedIndex

namespace Server

/-! ### Parts of the state -/

/-- The fields tokens and caps are checked against. -/
structure SameRules (srv srv' : Server) : Prop where
  config : srv'.config = srv.config
  cookieSecret : srv'.cookieSecret = srv.cookieSecret

/-- Everything handling a hello looks at, besides the counters of its host. -/
structure SameTable (srv srv' : Server) : Prop where
  sessions : srv'.sessions = srv.sessions
  endpointToConn : srv'.endpointToConn = srv.endpointToConn
  rules : srv.SameRules srv'

def Notes (srv srv' : Server) : Prop :=
  ∃ t calls, srv' = { srv with ipAbuse := t, onPacket := calls }

/-- Sessions are dropped, and nothing else happens. -/
structure Evicts (srv srv' : Server) : Prop where
  rules : srv.SameRules srv'
  net : srv'.net = srv.net
  history : srv'.history = srv.history
  ipAbuse : srv'.ipAbuse = srv.ipAbuse
  sub : ∀ connId ps, srv'.sessions.lookup connId = some ps → srv.sessions.lookup connId = some ps

/-- At most one packet in the clear is queued for the endpoint. -/
def Replies (C : Crypto) (now : UInt64) (dest : Endpoint) (srv srv' : Server) : Prop :=
  srv' = srv ∨ ∃ kind payload connId owner,
    srv' = (srv.queuePlain C now dest kind payload connId owner).2

/-- Code runs on the stored session with the given id, or on none. -/
def RunsOn (connId : UInt64) (f : Party → Result Unit × Party) (srv srv' : Server) : Prop :=
  srv' = srv ∨ ∃ ps, srv.sessions.lookup connId = some ps ∧
    srv' = srv.store connId ps (f (srv.party connId ps)).2

variable {C : Crypto} {N : InetNtop} {srv srv' srv'' : Server} {source : Endpoint}
  {hello : ClientHello} {now connId : UInt64} {resumed : Bool} {draws : Draws} {ps : PeerSession}

theorem SameRules.symm (h : srv.SameRules srv') : srv'.SameRules srv :=
  ⟨h.config.symm, h.cookieSecret.symm⟩

theorem SameRules.trans (h : srv.SameRules srv') (h' : srv'.SameRules srv'') :
    srv.SameRules srv'' :=
  ⟨h'.config.trans h.config, h'.cookieSecret.trans h.cookieSecret⟩

theorem SameTable.refl (srv : Server) : srv.SameTable srv := ⟨rfl, rfl, rfl, rfl⟩

theorem SameTable.lookup_eq (h : srv.SameTable srv') (connId : UInt64) :
    srv'.sessions.lookup connId = srv.sessions.lookup connId := by
  rw [h.sessions]

theorem SameTable.lookup (h : srv.SameTable srv') (hps : srv.sessions.lookup connId = some ps) :
    srv'.sessions.lookup connId = some ps :=
  (h.lookup_eq connId).trans hps

theorem SameTable.trans (h : srv.SameTable srv') (h' : srv'.SameTable srv'') :
    srv.SameTable srv'' :=
  ⟨h'.sessions.trans h.sessions, h'.endpointToConn.trans h.endpointToConn, h.rules.trans h'.rules⟩

theorem Notes.trans (h : srv.Notes srv') (h' : srv'.Notes srv'') : srv.Notes srv'' := by
  obtain ⟨_, _, rfl⟩ := h
  obtain ⟨t, calls, rfl⟩ := h'
  exact ⟨t, calls, rfl⟩

theorem Notes.sameTable (h : srv.Notes srv') : srv.SameTable srv' := by
  obtain ⟨_, _, rfl⟩ := h
  exact ⟨rfl, rfl, rfl, rfl⟩

theorem Notes.net (h : srv.Notes srv') : srv'.net = srv.net := by
  obtain ⟨_, _, rfl⟩ := h
  rfl

theorem Notes.history (h : srv.Notes srv') : srv'.history = srv.history := by
  obtain ⟨_, _, rfl⟩ := h
  rfl

theorem endpointIsBanned_notes (endpoint : Endpoint) (now : UInt64) (srv : Server) :
    srv.Notes (srv.endpointIsBanned endpoint now).2 := ⟨_, _, rfl⟩

theorem endpointRateLimited_notes (endpoint : Endpoint) (now : UInt64) (srv : Server) :
    srv.Notes (srv.endpointRateLimited endpoint now).2 := by
  unfold endpointRateLimited
  dsimp only
  split_ifs <;> exact ⟨_, _, rfl⟩

theorem noteInvalidPacket_notes (endpoint : Endpoint) (now : UInt64) (srv : Server) :
    srv.Notes (srv.noteInvalidPacket endpoint now) := by
  unfold noteInvalidPacket
  dsimp only
  split_ifs <;> exact ⟨_, _, rfl⟩

theorem Evicts.refl (srv : Server) : srv.Evicts srv :=
  ⟨⟨rfl, rfl⟩, rfl, rfl, rfl, fun _ _ h => h⟩

theorem Evicts.trans (h : srv.Evicts srv') (h' : srv'.Evicts srv'') : srv.Evicts srv'' :=
  ⟨h.rules.trans h'.rules, h'.net.trans h.net, h'.history.trans h.history,
    h'.ipAbuse.trans h.ipAbuse, fun connId ps hps => h.sub connId ps (h'.sub connId ps hps)⟩

theorem Evicts.lookup_none (h : srv.Evicts srv') (hnone : srv.sessions.lookup connId = none) :
    srv'.sessions.lookup connId = none := by
  rw [Option.eq_none_iff_forall_ne_some] at hnone ⊢
  exact fun ps hps => hnone ps (h.sub connId ps hps)

theorem evictSession_evicts (connId : UInt64) (srv : Server) :
    srv.Evicts (srv.evictSession connId) := by
  unfold evictSession
  split
  · exact .refl srv
  · exact ⟨⟨rfl, rfl⟩, rfl, rfl, rfl, fun _ _ h => (of_lookup_erase h).2⟩

theorem evictEndpoint_evicts (endpoint : Endpoint) (srv : Server) :
    srv.Evicts (srv.evictEndpoint endpoint) := by
  unfold evictEndpoint
  split
  · exact .refl srv
  · exact evictSession_evicts ..

theorem foldl_evictSession_evicts (ids : List UInt64) (srv : Server) :
    srv.Evicts (ids.foldl (fun srv connId => srv.evictSession connId) srv) := by
  induction ids generalizing srv with
  | nil => exact .refl srv
  | cons connId ids ih => exact (evictSession_evicts connId srv).trans (ih _)

theorem evictStaleSessions_evicts (now : UInt64) (srv : Server) :
    srv.Evicts (srv.evictStaleSessions now) := foldl_evictSession_evicts _ srv

theorem Replies.refl (C : Crypto) (now : UInt64) (dest : Endpoint) (srv : Server) :
    srv.Replies C now dest srv := Or.inl rfl

theorem queuePlain_replies (now : UInt64) (dest : Endpoint) (kind : PacketKind) (payload : Bytes)
    (connId owner : UInt64) (srv : Server) :
    srv.Replies C now dest (srv.queuePlain C now dest kind payload connId owner).2 :=
  Or.inr ⟨kind, payload, connId, owner, rfl⟩

theorem Replies.sameTable (h : srv.Replies C now source srv') : srv.SameTable srv' := by
  rcases h with rfl | ⟨kind, payload, connId, owner, rfl⟩ <;> exact ⟨rfl, rfl, rfl, rfl⟩

theorem Replies.history (h : srv.Replies C now source srv') : srv'.history = srv.history := by
  rcases h with rfl | ⟨kind, payload, connId, owner, rfl⟩ <;> rfl

theorem Replies.ipAbuse (h : srv.Replies C now source srv') : srv'.ipAbuse = srv.ipAbuse := by
  rcases h with rfl | ⟨kind, payload, connId, owner, rfl⟩ <;> rfl

theorem queueRetry_replies (now : UInt64) (dest : Endpoint) (token : RetryToken) (srv : Server) :
    srv.Replies C now dest (srv.queueRetry C now dest token).2 := by
  unfold queueRetry
  split
  · exact .refl ..
  · exact queuePlain_replies ..

theorem queuePlainClose_replies (now : UInt64) (dest : Endpoint) (connId : UInt64)
    (reason : CloseReason) (srv : Server) :
    srv.Replies C now dest (srv.queuePlainClose C now dest connId reason) := by
  unfold queuePlainClose
  split
  · exact .refl ..
  · exact queuePlain_replies ..

theorem queueServerHello_replies (now : UInt64) (draws : Draws) (ps : PeerSession) (srv : Server) :
    srv.Replies C now ps.session.endpoint (srv.queueServerHello C N now draws ps).2 := by
  unfold queueServerHello
  dsimp only
  split
  · exact .refl ..
  · exact queuePlain_replies ..

theorem of_lookup_store {p : Party} {connId' : UInt64} {ps' : PeerSession}
    (h : (srv.store connId ps p).sessions.lookup connId' = some ps') :
    connId' = connId ∧ ps' = { ps with session := p.session } ∨
      connId' ≠ connId ∧ srv.sessions.lookup connId' = some ps' :=
  of_lookup_insert h

theorem lookup_store_ne {connId' : UInt64} (h : connId' ≠ connId) (ps : PeerSession) (p : Party)
    (srv : Server) : (srv.store connId ps p).sessions.lookup connId' =
      srv.sessions.lookup connId' :=
  AList.lookup_insert_ne h

theorem onStored_runsOn (connId : UInt64) (f : Party → Result Unit × Party) (srv : Server) :
    srv.RunsOn connId f (srv.onStored f connId).2 := by
  unfold onStored
  cases hps : srv.sessions.lookup connId with
  | none => exact Or.inl rfl
  | some ps => exact Or.inr ⟨ps, hps, rfl⟩

theorem onPeer_runsOn (endpoint : Endpoint) (connId : UInt64) (f : Party → Result Unit × Party)
    (srv : Server) : srv.RunsOn connId f (srv.onPeer endpoint connId f).2 := by
  unfold onPeer
  cases hps : srv.sessions.lookup connId with
  | none => exact Or.inl rfl
  | some ps =>
    dsimp only
    split_ifs
    · exact Or.inl rfl
    · exact Or.inr ⟨ps, hps, rfl⟩

theorem closeSession_runsOn (connId now : UInt64) (reason : CloseReason) (srv : Server) :
    srv.RunsOn connId (fun p => (.ok (), p.closeSession C now reason))
      (srv.closeSession C connId now reason) := by
  unfold closeSession
  cases hps : srv.sessions.lookup connId with
  | none => exact Or.inl rfl
  | some ps => exact Or.inr ⟨ps, hps, rfl⟩

theorem notePreauthReceive_sameTable (source : Endpoint) (bytes : ℕ) (now : UInt64) (srv : Server) :
    srv.SameTable (srv.notePreauthReceive source bytes now) :=
  ⟨rfl, rfl, rfl, rfl⟩

/-! ### A hello -/

variable (C N)

/-- The one token of the hello lets it in: a retry token, or, `resumed`, a resumption token. -/
def Admits (srv : Server) (source : Endpoint) (hello : ClientHello) (now : UInt64)
    (resumed : Bool) : Prop :=
  if resumed then
    srv.config.enableSessionResumption = true ∧ hello.retryToken = none ∧
      ∃ token, hello.resumptionToken = some token ∧
        validateResumptionToken C N srv.cookieSecret source token now = .ok ()
  else hello.resumptionToken = none ∧ ∃ token, hello.retryToken = some token ∧
    validateRetryToken C N srv.cookieSecret source hello token now = .ok ()

/-- The caps leave room for one more session of the host. -/
structure HasRoom (srv : Server) (host : Host) : Prop where
  sessions : srv.sessions.keys.length < srv.config.maxPeerSessions.toNat
  hosts : UInt32.ofNat (srv.sessionsForHost host) < srv.config.abuse.maxSessionsPerIp

/-- The caps leave no room, once stale sessions are gone. -/
def full (source : Endpoint) (now : UInt64) (srv : Server) : Bool :=
  srv.config.maxPeerSessions.toNat ≤ (srv.evictStaleSessions now).sessions.keys.length ||
    srv.config.abuse.maxSessionsPerIp ≤
      UInt32.ofNat ((srv.evictStaleSessions now).sessionsForHost source.hostKey)

/-- The server after the checks of the host. -/
def checked (source : Endpoint) (now : UInt64) (srv : Server) : Server :=
  ((srv.endpointIsBanned source now).2.endpointRateLimited source now).2

/-- The host is neither banned nor over its rate. -/
structure Passes (source : Endpoint) (now : UInt64) (srv : Server) : Prop where
  banned : (srv.endpointIsBanned source now).1 = false
  limited : (srv.endpointRateLimited source now).1 = false

variable (source : Endpoint) (hello : ClientHello) (resumed : Bool) (now : UInt64) (draws : Draws)
  (srv : Server)

/-- The session to be set up for the hello. -/
def Prepares (a : Admission) : Prop :=
  ∃ keys, C.kxServer (C.kxKeypair draws.seed) hello.clientPublicKey = some keys ∧
    a = (srv.evictEndpoint source).admission C source hello resumed now draws keys

/-- The new session in the table, in place of an older one of its endpoint. -/
def seat (source : Endpoint) (a : Admission) (srv : Server) : Server :=
  (srv.evictEndpoint source).advancePeerId.emplace a

def greet (source : Endpoint) (now : UInt64) (draws : Draws) (a : Admission) (srv : Server) :
    Result Unit × Server :=
  (srv.seat source a).queueServerHello C N now draws a.peer

/-- What setting a session up comes to. -/
inductive CreateOutcome : Result Unit × Server → Prop
  | keyless (e : Failure) : CreateOutcome (.error e, (srv.evictEndpoint source).advancePeerId)
  /-- The session is there, but its server hello cannot be queued. -/
  | unanswered (a : Admission) (e : Failure) (ha : srv.Prepares C source hello resumed now draws a)
      (hq : (srv.greet C N source now draws a).1 = .error e) :
      CreateOutcome (.error e,
        (srv.greet C N source now draws a).2.evictSession a.peer.session.connId)
  | answered (a : Admission) (ha : srv.Prepares C source hello resumed now draws a)
      (hq : (srv.greet C N source now draws a).1 = .ok ()) :
      CreateOutcome (.ok (), (srv.greet C N source now draws a).2)

/-- What handling a hello comes to. -/
inductive HelloOutcome : Result Unit × Server → Prop
  | twoTokens (e : Failure) (hboth : hello.retryToken.isSome ∧ hello.resumptionToken.isSome) :
      HelloOutcome (.error e, srv)
  | banned (hban : (srv.endpointIsBanned source now).1 = true) :
      HelloOutcome (.ok (), (srv.endpointIsBanned source now).2)
  | limited (hban : (srv.endpointIsBanned source now).1 = false)
      (hlim : (srv.endpointRateLimited source now).1 = true)
      (hone : ¬(hello.retryToken.isSome ∧ hello.resumptionToken.isSome)) :
      HelloOutcome (.ok (), srv.checked source now)
  | asked (token : RetryToken) (hpass : srv.Passes source now)
      (hnot : ∀ resumed, ¬srv.Admits C N source hello now resumed)
      (hone : ¬(hello.retryToken.isSome ∧ hello.resumptionToken.isSome)) :
      HelloOutcome ((srv.checked source now).queueRetry C now source token)
  | askedAgain (token : RetryToken) (hpass : srv.Passes source now)
      (hnot : ∀ resumed, ¬srv.Admits C N source hello now resumed)
      (hone : ¬(hello.retryToken.isSome ∧ hello.resumptionToken.isSome)) :
      HelloOutcome (.ok (), ((srv.checked source now).queueRetry C now source token).2)
  | expired (hpass : srv.Passes source now)
      (hnot : ∀ resumed, ¬srv.Admits C N source hello now resumed)
      (hone : ¬(hello.retryToken.isSome ∧ hello.resumptionToken.isSome)) :
      HelloOutcome (.ok (), (srv.checked source now).queuePlainClose C now source 0 .cookieExpired)
  | full (resumed : Bool) (reason : CloseReason) (hpass : srv.Passes source now)
      (hadm : srv.Admits C N source hello now resumed) (hfull : srv.full source now = true) :
      HelloOutcome (.ok (),
        ((srv.checked source now).evictStaleSessions now).queuePlainClose C now source 0 reason)
  | created (resumed : Bool) {r : Result Unit × Server} (hpass : srv.Passes source now)
      (hadm : srv.Admits C N source hello now resumed) (hfull : srv.full source now = false)
      (hroom : ((srv.checked source now).evictStaleSessions now).HasRoom source.hostKey)
      (h : CreateOutcome C N source hello resumed now draws
        ((srv.checked source now).evictStaleSessions now) r) :
      HelloOutcome r

variable {C N source hello resumed now draws srv}

theorem Admits.sameRules (h : srv.Admits C N source hello now resumed) (hs : srv.SameRules srv') :
    srv'.Admits C N source hello now resumed := by
  unfold Admits
  rw [hs.config, hs.cookieSecret]
  exact h

theorem Admits.not_both (h : srv.Admits C N source hello now resumed) :
    ¬(hello.retryToken.isSome = true ∧ hello.resumptionToken.isSome = true) := by
  cases resumed with
  | false => simp [h.1]
  | true => simp [h.2.1]

theorem resumes_iff :
    srv.resumes C N source hello now = true ↔ srv.Admits C N source hello now true := by
  unfold resumes Admits
  cases hello.retryToken <;> cases hello.resumptionToken <;> simp

theorem abuseStateFor_setAbuseState (endpoint : Endpoint) (state : IpAbuseState) (srv : Server) :
    (srv.setAbuseState endpoint state).abuseStateFor endpoint = state := by
  simp [abuseStateFor, setAbuseState]

theorem abuseStateFor_endpointIsBanned (endpoint : Endpoint) (now : UInt64) (srv : Server) :
    (srv.endpointIsBanned endpoint now).2.abuseStateFor endpoint = srv.abuseStateFor endpoint :=
  abuseStateFor_setAbuseState endpoint _ srv

theorem endpointRateLimited_congr (now : UInt64)
    (hs : srv'.abuseStateFor source = srv.abuseStateFor source)
    (hc : srv'.config = srv.config) :
    (srv'.endpointRateLimited source now).1 = (srv.endpointRateLimited source now).1 := by
  unfold endpointRateLimited
  dsimp only
  rw [hs, hc]
  split_ifs <;> rfl

theorem Passes.congr (h : srv.Passes source now)
    (hs : srv'.abuseStateFor source = srv.abuseStateFor source)
    (hc : srv'.config = srv.config) : srv'.Passes source now := by
  refine ⟨?_, (endpointRateLimited_congr now hs hc).trans h.limited⟩
  rw [← h.banned]
  unfold endpointIsBanned
  rw [hs]

theorem checked_notes (source : Endpoint) (now : UInt64) (srv : Server) :
    srv.Notes (srv.checked source now) :=
  (endpointIsBanned_notes ..).trans (endpointRateLimited_notes ..)

theorem SameTable.evictSession (h : srv.SameTable srv') (connId : UInt64) :
    (srv.evictSession connId).SameTable (srv'.evictSession connId) := by
  unfold Server.evictSession
  rw [h.sessions]
  cases srv.sessions.lookup connId with
  | none => exact h
  | some ps =>
    exact ⟨rfl, congrArg (AList.erase _) h.endpointToConn, h.rules.config, h.rules.cookieSecret⟩

theorem SameTable.evictStale (h : srv.SameTable srv') (now : UInt64) :
    (srv.evictStaleSessions now).SameTable (srv'.evictStaleSessions now) := by
  have hdoomed : srv'.doomed now = srv.doomed now := by
    unfold doomed
    rw [h.sessions, h.rules.config]
  unfold evictStaleSessions
  rw [hdoomed]
  clear hdoomed
  induction srv.doomed now generalizing srv srv' with
  | nil => exact h
  | cons connId l ih => exact ih (h.evictSession connId)

theorem SameTable.evictEndpoint (h : srv.SameTable srv') (endpoint : Endpoint) :
    (srv.evictEndpoint endpoint).SameTable (srv'.evictEndpoint endpoint) := by
  unfold Server.evictEndpoint findSessionByEndpoint
  rw [h.endpointToConn, h.sessions]
  cases srv.endpointToConn.lookup endpoint with
  | none => exact h
  | some connId =>
    dsimp only
    cases srv.sessions.lookup connId with
    | none => exact h
    | some ps => exact h.evictSession ps.session.connId

theorem full_congr (source : Endpoint) (now : UInt64) (h : srv.SameTable srv') :
    srv'.full source now = srv.full source now := by
  unfold full sessionsForHost
  rw [(h.evictStale now).sessions, h.rules.config]

theorem admission_endpoint (C : Crypto) (source : Endpoint) (hello : ClientHello) (resumed : Bool)
    (now : UInt64) (draws : Draws) (keys : SessionKeys) (srv : Server) :
    (srv.admission C source hello resumed now draws keys).peer.session.endpoint = source := by
  simp [admission, keyedSession, newPeerSession, Session.transitionState]

theorem admission_connId (C : Crypto) (source : Endpoint) (hello : ClientHello) (resumed : Bool)
    (now : UInt64) (draws : Draws) (keys : SessionKeys) (srv : Server) :
    (srv.admission C source hello resumed now draws keys).peer.session.connId =
      srv.allocateConnId draws.connIds := by
  simp [admission, keyedSession, newPeerSession, Session.transitionState]

variable {a : Admission}

theorem Prepares.peer_endpoint (h : srv.Prepares C source hello resumed now draws a) :
    a.peer.session.endpoint = source := by
  obtain ⟨keys, -, rfl⟩ := h
  exact admission_endpoint ..

theorem Prepares.peer_connId (h : srv.Prepares C source hello resumed now draws a) :
    a.peer.session.connId = (srv.evictEndpoint source).allocateConnId draws.connIds := by
  obtain ⟨keys, -, rfl⟩ := h
  exact admission_connId ..

theorem Prepares.greet_replies (h : srv.Prepares C source hello resumed now draws a) :
    (srv.seat source a).Replies C now source (srv.greet C N source now draws a).2 :=
  h.peer_endpoint ▸ queueServerHello_replies ..

theorem lookup_seat_self (source : Endpoint) (a : Admission) (srv : Server) :
    (srv.seat source a).sessions.lookup a.peer.session.connId = some a.peer :=
  AList.lookup_insert _

theorem of_lookup_seat (h : (srv.seat source a).sessions.lookup connId = some ps) :
    connId = a.peer.session.connId ∧ ps = a.peer ∨
      connId ≠ a.peer.session.connId ∧ srv.sessions.lookup connId = some ps :=
  (of_lookup_insert h).imp_right fun h => ⟨h.1, (evictEndpoint_evicts source srv).sub _ _ h.2⟩

theorem lookup_seat_ne (h : connId ≠ a.peer.session.connId) (source : Endpoint) (srv : Server) :
    (srv.seat source a).sessions.lookup connId =
      (srv.evictEndpoint source).sessions.lookup connId :=
  AList.lookup_insert_ne h

theorem createSession_outcome (source : Endpoint) (hello : ClientHello) (resumed : Bool)
    (now : UInt64) (draws : Draws) (srv : Server) :
    CreateOutcome C N source hello resumed now draws srv
      (srv.createSession C N source hello resumed now draws) := by
  unfold createSession cryptoDeriveServerSessionKeys
  dsimp only
  cases hkeys : C.kxServer (C.kxKeypair draws.seed) hello.clientPublicKey with
  | none => exact .keyless _
  | some keys =>
    have ha : srv.Prepares C source hello resumed now draws _ := ⟨keys, hkeys, rfl⟩
    have herror := fun e => CreateOutcome.unanswered (N := N) _ e ha
    have hok := CreateOutcome.answered (N := N) _ ha
    unfold greet seat at herror hok
    dsimp only
    split <;> rename_i heq <;> rw [heq] at herror hok
    · exact herror _ rfl
    · exact hok rfl

theorem admitHello_outcome (hpass : srv.Passes source now)
    (hadm : srv.Admits C N source hello now resumed) (draws : Draws) :
    HelloOutcome C N source hello now draws srv
      ((srv.checked source now).admitHello C N source hello resumed now draws) := by
  have hevict := (evictStaleSessions_evicts now (srv.checked source now)).rules.config
  have hfull := full_congr source now (checked_notes source now srv).sameTable
  unfold Server.full at hfull
  rw [← hevict] at hfull
  unfold admitHello
  dsimp only
  split_ifs with hsize hhost
  · exact .full resumed _ hpass hadm (hfull.symm.trans (by simp [hsize]))
  · exact .full resumed _ hpass hadm (hfull.symm.trans (by simp [hhost]))
  · exact .created resumed hpass hadm (hfull.symm.trans (by simp [hsize, hhost]))
      ⟨not_le.mp hsize, UInt32.not_le.mp hhost⟩ (createSession_outcome ..)

theorem handleClientHello_outcome (source : Endpoint) (hello : ClientHello) (now : UInt64)
    (draws : Draws) (srv : Server) : HelloOutcome C N source hello now draws srv
      (srv.handleClientHello C N source hello now draws) := by
  have hrules := (checked_notes source now srv).sameTable.rules
  have hadmit : ∀ resumed, srv.Passes source now →
      (srv.checked source now).Admits C N source hello now resumed →
      HelloOutcome C N source hello now draws srv
        ((srv.checked source now).admitHello C N source hello resumed now draws) :=
    fun resumed hpass h => admitHello_outcome hpass (h.sameRules hrules.symm) draws
  have hlimited := endpointRateLimited_congr now (abuseStateFor_endpointIsBanned source now srv) rfl
  unfold handleClientHello
  split_ifs with hboth
  · exact .twoTokens _ hboth
  dsimp only
  rw [← checked, hlimited]
  split_ifs with hban hlim hres
  · exact .banned hban
  · exact .limited (by simpa using hban) hlim hboth
  all_goals
    have hpass : srv.Passes source now := ⟨by simpa using hban, by simpa using hlim⟩
  · exact hadmit true hpass (resumes_iff.mp hres)
  have hresumed : ¬srv.Admits C N source hello now true :=
    fun h => hres (resumes_iff.mpr (h.sameRules hrules))
  cases hretry : hello.retryToken with
  | none =>
    refine .asked _ hpass (fun resumed h => ?_) hboth
    cases resumed with
    | true => exact hresumed h
    | false =>
      obtain ⟨-, token, htoken, -⟩ := h
      cases hretry.symm.trans htoken
  | some token =>
    have hnone : hello.resumptionToken = none := by simpa [hretry] using hboth
    dsimp only
    split
    · rename_i hval
      exact hadmit false hpass ⟨hnone, token, hretry, hval⟩
    · rename_i e hval
      have hnot : ∀ resumed, ¬srv.Admits C N source hello now resumed := by
        intro resumed h
        cases resumed with
        | true => exact hresumed h
        | false =>
          obtain ⟨-, token', htoken', hval'⟩ := h.sameRules hrules
          cases hretry.symm.trans htoken'
          cases hval.symm.trans hval'
      split_ifs
      · exact .expired hpass hnot hboth
      · exact .askedAgain _ hpass hnot hboth

/-! ### A packet -/

theorem readHandshake_eq_ok {packet : PacketView} (h : readHandshake packet = .ok hello) :
    packet.h.connId = 0 ∧ readClientHello packet.payload = .ok hello := by
  unfold readHandshake at h
  rw [Result.guard_eq_ok, Result.guard_eq_ok] at h
  obtain ⟨hello', hread, hlast⟩ := Result.bind_eq_ok.mp h.2.2
  rw [Result.guard_eq_ok] at hlast
  cases hlast.2
  exact ⟨not_not.mp hlast.1, hread⟩

variable (C N)

variable (source : Endpoint) (packet : PacketView) (datagram : Bytes) (connId now : UInt64)
  (draws : Draws) (e : Failure) (srv : Server)

/-- What a failed packet leads to. -/
inductive ChainOutcome : Server → Prop
  | ignored (h : Party.chainReason (.server srv.config) e.code = none) :
      ChainOutcome srv
  | noted (hid : connId = 0) :
      ChainOutcome (srv.noteInvalidPacket source now)
  | closed (reason : CloseReason)
      (h : Party.chainReason (.server srv.config) e.code = some reason) :
      ChainOutcome
        ((srv.noteInvalidPacket source now).closeSession C connId now reason)

/-- What a packet from a host that is not banned comes to, with the error chain behind it. -/
inductive PacketOutcome : Server → Prop
  | faulty (e : Failure) (hkind : packet.h.kind = PacketKind.handshake.code)
      (hread : readHandshake packet = .error e) : PacketOutcome
        (srv.errorChain C source packet.h.connId now e)
  | greeted (hello : ClientHello) {srv' : Server}
      (hkind : packet.h.kind = PacketKind.handshake.code)
      (hread : readHandshake packet = .ok hello)
      (h : HelloOutcome C N source hello now draws srv (.ok (), srv')) :
      PacketOutcome srv'
  | unwelcome (hello : ClientHello) (e : Failure) {srv' : Server}
      (hkind : packet.h.kind = PacketKind.handshake.code)
      (hread : readHandshake packet = .ok hello)
      (h : HelloOutcome C N source hello now draws srv (.error e, srv')) :
      PacketOutcome (srv'.errorChain C source 0 now e)
  | nameless (e : Failure) (hkind : packet.h.kind ≠ PacketKind.handshake.code)
      (hid : packet.h.connId = 0) :
      PacketOutcome (srv.errorChain C source 0 now e)
  | unknown (hkind : packet.h.kind ≠ PacketKind.handshake.code) (hid : packet.h.connId ≠ 0)
      (hother : ∀ ps, srv.sessions.lookup packet.h.connId = some ps →
        ps.session.endpoint ≠ source) :
      PacketOutcome
        (srv.queuePlainClose C now source packet.h.connId .unknownConnection)
  | taken (ps : PeerSession) (q : Party) (hkind : packet.h.kind ≠ PacketKind.handshake.code)
      (hid : packet.h.connId ≠ 0) (hps : srv.sessions.lookup packet.h.connId = some ps)
      (hsource : ps.session.endpoint = source)
      (hq : (srv.party packet.h.connId ps).handleSessionPacket C now packet = (.ok (), q)) :
      PacketOutcome (srv.store packet.h.connId ps q)
  | failed (ps : PeerSession) (q : Party) (e : Failure)
      (hkind : packet.h.kind ≠ PacketKind.handshake.code)
      (hid : packet.h.connId ≠ 0) (hps : srv.sessions.lookup packet.h.connId = some ps)
      (hsource : ps.session.endpoint = source)
      (hq : (srv.party packet.h.connId ps).handleSessionPacket C now packet = (.error e, q)) :
      PacketOutcome
        ((srv.store packet.h.connId ps q).errorChain C source packet.h.connId now e)

/-- What one datagram comes to. -/
inductive DatagramOutcome : Server → Prop
  | outdated (e : Failure) (hp : parsePacket datagram = .error e) :
      DatagramOutcome
        ((srv.notePreauthReceive source datagram.length now).queuePlainClose C now source 0
          .unsupportedVersion)
  | garbled (e : Failure) (hp : parsePacket datagram = .error e) :
      DatagramOutcome
        ((srv.notePreauthReceive source datagram.length now).noteInvalidPacket source now)
  | known (packet : PacketView) (hp : parsePacket datagram = .ok packet)
      (htraffic : srv.isSessionTraffic packet = true) :
      DatagramOutcome (srv.handlePacket C N source packet now draws)
  | counted (packet : PacketView) (hp : parsePacket datagram = .ok packet)
      (htraffic : srv.isSessionTraffic packet = false) :
      DatagramOutcome
        ((srv.notePreauthReceive source datagram.length now).handlePacket C N source packet now
          draws)

variable {C N source packet datagram connId now draws e srv}

theorem errorChain_outcome (source : Endpoint) (connId now : UInt64) (e : Failure) (srv : Server) :
    ChainOutcome C source connId now e srv (srv.errorChain C source connId now e) := by
  unfold errorChain
  split
  · exact .ignored ‹_›
  · dsimp only
    split_ifs with h
    · exact .noted h.2
    · exact .closed _ ‹_›

/-- Once the ban is checked and `_on_packet` called. -/
def past (source : Endpoint) (packet : PacketView) (now : UInt64) (srv : Server) : Server :=
  (srv.endpointIsBanned source now).2.showHandshake source packet

theorem past_notes (source : Endpoint) (packet : PacketView) (now : UInt64) (srv : Server) :
    srv.Notes (srv.past source packet now) := ⟨_, _, rfl⟩

theorem abuseStateFor_past (source : Endpoint) (packet : PacketView) (now : UInt64)
    (srv : Server) : (srv.past source packet now).abuseStateFor source = srv.abuseStateFor source :=
  abuseStateFor_endpointIsBanned source now srv

/-- A packet of a banned host goes nowhere. -/
theorem handlePacket_outcome (source : Endpoint) (packet : PacketView) (now : UInt64)
    (draws : Draws) (srv : Server) :
    (srv.endpointIsBanned source now).1 = true ∧
        srv.handlePacket C N source packet now draws = (srv.endpointIsBanned source now).2 ∨
      (srv.endpointIsBanned source now).1 = false ∧
        PacketOutcome C N source packet now draws (srv.past source packet now)
          (srv.handlePacket C N source packet now draws) := by
  unfold handlePacket past
  cases hb : srv.endpointIsBanned source now with
  | mk banned srv₁ =>
    cases banned with
    | true => exact Or.inl ⟨rfl, rfl⟩
    | false =>
      refine Or.inr ⟨rfl, ?_⟩
      simp only [Bool.false_eq_true, if_false]
      generalize srv₁.showHandshake source packet = srv₁
      unfold routePacket handleHandshakePacket
      split_ifs with hkind hid
      · cases hread : readHandshake packet with
        | error e => exact .faulty e hkind hread
        | ok hello =>
          have h := handleClientHello_outcome (C := C) (N := N) source hello now draws srv₁
          rw [(readHandshake_eq_ok hread).1]
          dsimp only
          generalize srv₁.handleClientHello C N source hello now draws = r at h
          obtain ⟨rc, srv₂⟩ := r
          cases rc with
          | ok u => exact .greeted hello hkind hread h
          | error e => exact .unwelcome hello e hkind hread h
      · rw [hid]
        exact .nameless _ hkind hid
      · cases hps : srv₁.sessions.lookup packet.h.connId with
        | none => exact .unknown hkind hid (by simp [hps])
        | some ps =>
          dsimp only
          split_ifs with hsource
          · exact .unknown hkind hid (by simpa [hps] using hsource)
          · unfold onSession
            cases hq : (srv₁.party packet.h.connId ps).handleSessionPacket C now packet with
            | mk rc q =>
              cases rc with
              | ok u => exact .taken ps q hkind hid hps (not_not.mp hsource) hq
              | error e => exact .failed ps q e hkind hid hps (not_not.mp hsource) hq

theorem receive_outcome (source : Endpoint) (datagram : Bytes) (now : UInt64) (draws : Draws)
    (srv : Server) : DatagramOutcome C N source datagram now draws srv
      (srv.receive C N source datagram now draws) := by
  unfold receive
  cases hp : parsePacket datagram with
  | error e =>
    dsimp only
    split_ifs
    · exact .outdated e hp
    · exact .garbled e hp
  | ok packet =>
    dsimp only
    split_ifs with htraffic
    · exact .known packet hp htraffic
    · exact .counted packet hp (by simpa using htraffic)

end Server

end SecureCnet
