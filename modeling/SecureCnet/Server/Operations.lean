import SecureCnet.Server.State
import SecureCnet.Session.Frames

/-!
# Server operations

From a datagram to the sessions: the handshake with its tokens, bans and caps, the
packets of sessions with the error chain behind them, and the loops of `tick`. The
clock is read once for every datagram and for every visit of a loop, and once more for
the eviction at the end of the housekeeping.
-/

namespace SecureCnet

namespace Server

variable (C : Crypto) (N : InetNtop)

/-! ### Handshake -/

/-- A session as `handle_client_hello` sets it up, without its keys. -/
def newPeerSession (source : Endpoint) (connId peerId : UInt64) (hello : ClientHello)
    (resumed : Bool) (now : UInt64) (serverNonce : Block 16) (config : ServerConfig) :
    PeerSession :=
  let congestion : CongestionController :=
    CongestionController.configure config.congestion config.sendBudgetBytesPerSecond {}
  let reliability := { config.reliability with
    maxPendingBytes := min config.reliability.maxPendingBytes
      config.abuse.maxQueuedReliableBytesPerPeer }
  { session :=
      { endpoint := source
        connId
        startedMs := now
        lastRecvMs := now
        budget := ⟨congestion, congestion.rateBytesPerSecond, now⟩
        reliable := ReliableSession.configure reliability {}
        orderedReliable := ReliableSession.configure reliability {}
        ordered := { maxBuffered := config.reliability.orderedReceiveWindow }
        reassembler := FragmentReassembler.configure config.fragmentation {} }
    peerId
    clientNonce := hello.clientNonce
    serverNonce
    clientPublicKey := hello.clientPublicKey
    handshakeRetryToken := if resumed then none else hello.retryToken
    handshakeResumptionToken := if resumed then hello.resumptionToken else none }

/-- The session with its keys; the ephemeral secret is wiped. -/
def keyedSession (ephemeral : KeyPair) (keys : SessionKeys) (ps : PeerSession) : PeerSession :=
  { ps with session := Session.transitionState .handshaking { ps.session with
      ephemeral := { ephemeral with secretKey := Block.zero 32 }, keys } }

/-- The older session of an endpoint makes room. -/
def evictEndpoint (endpoint : Endpoint) (srv : Server) : Server :=
  match srv.findSessionByEndpoint endpoint with
  | none => srv
  | some existing => srv.evictSession existing.session.connId

def advancePeerId (srv : Server) : Server :=
  { srv with nextPeerId := if srv.nextPeerId + 1 = 0 then 1 else srv.nextPeerId + 1 }

/-- The session a hello leads to once its keys are derived. -/
def admission (source : Endpoint) (hello : ClientHello) (resumed : Bool) (now : UInt64)
    (draws : Draws) (keys : SessionKeys) (srv : Server) : Admission where
  source
  hello
  now
  cookieSecret := srv.cookieSecret
  peer := keyedSession (C.kxKeypair draws.seed) keys
    (newPeerSession source (srv.allocateConnId draws.connIds) srv.nextPeerId hello resumed now
      draws.serverNonce srv.config)

/-- The end of `handle_client_hello`: the session is set up, stored and answered. -/
def createSession (source : Endpoint) (hello : ClientHello) (resumed : Bool) (now : UInt64)
    (draws : Draws) (srv : Server) : Result Unit × Server :=
  let srv := srv.evictEndpoint source
  match cryptoDeriveServerSessionKeys C (C.kxKeypair draws.seed) hello.clientPublicKey with
  | .error e => (.error e, srv.advancePeerId)
  | .ok keys =>
    let a := srv.admission C source hello resumed now draws keys
    let srv := srv.advancePeerId.emplace a
    match srv.queueServerHello C N now draws a.peer with
    | (.error e, srv) => (.error e, srv.evictSession a.peer.session.connId)
    | (.ok (), srv) => (.ok (), srv)

/-- The part behind the tokens: stale sessions go, then the caps are checked. -/
def admitHello (source : Endpoint) (hello : ClientHello) (resumed : Bool) (now : UInt64)
    (draws : Draws) (srv : Server) : Result Unit × Server :=
  let srv := srv.evictStaleSessions now
  if srv.config.maxPeerSessions.toNat ≤ srv.sessions.keys.length then
    (.ok (), srv.queuePlainClose C now source 0 .backpressure)
  else if srv.config.abuse.maxSessionsPerIp ≤ UInt32.ofNat (srv.sessionsForHost source.hostKey) then
    (.ok (), srv.queuePlainClose C now source 0 .rateLimited)
  else srv.createSession C N source hello resumed now draws

/-- The hello carries no retry token and a resumption token the server accepts. -/
def resumes (source : Endpoint) (hello : ClientHello) (now : UInt64) (srv : Server) : Bool :=
  match hello.retryToken, hello.resumptionToken with
  | none, some token => srv.config.enableSessionResumption &&
      validateResumptionToken C N srv.cookieSecret source token now = .ok ()
  | _, _ => false

def handleClientHello (source : Endpoint) (hello : ClientHello) (now : UInt64) (draws : Draws)
    (srv : Server) : Result Unit × Server :=
  if hello.retryToken.isSome ∧ hello.resumptionToken.isSome then
    (fail .badPacket "client hello cannot include both retry and resumption token", srv)
  else
    let (banned, srv) := srv.endpointIsBanned source now
    if banned then (.ok (), srv)
    else
      let (limited, srv) := srv.endpointRateLimited source now
      if limited then (.ok (), srv)
      else if srv.resumes C N source hello now then
        srv.admitHello C N source hello true now draws
      else
        let retry := makeRetryToken C N srv.cookieSecret source hello now
        match hello.retryToken with
        | none => srv.queueRetry C now source retry
        | some token =>
          match validateRetryToken C N srv.cookieSecret source hello token now with
          | .ok () => srv.admitHello C N source hello false now draws
          | .error e =>
            (.ok (), if e.code = .timeout then srv.queuePlainClose C now source 0 .cookieExpired
              else (srv.queueRetry C now source retry).2)

/-! ### Packets -/

/-- The hello in a handshake packet, or why it is refused. -/
def readHandshake (packet : PacketView) : Result ClientHello :=
  if packetHeaderEncrypted packet.h then
    fail .protocolError "encrypted handshake packet is illegal"
  else if packet.h.payloadLen = 0 then fail .badPacket "empty handshake packet"
  else do
    let hello ← readClientHello packet.payload
    if packet.h.connId ≠ 0 then fail .protocolError "client hello must use conn_id 0"
    else return hello

def handleHandshakePacket (source : Endpoint) (packet : PacketView) (now : UInt64) (draws : Draws)
    (srv : Server) : Result Unit × Server :=
  match readHandshake packet with
  | .error e => (.error e, srv)
  | .ok hello => srv.handleClientHello C N source hello now draws

/-- Hand a packet to whatever it is for. -/
def routePacket (source : Endpoint) (packet : PacketView) (now : UInt64) (draws : Draws)
    (srv : Server) : Result Unit × Server :=
  if packet.h.kind = PacketKind.handshake.code then
    srv.handleHandshakePacket C N source packet now draws
  else if packet.h.connId = 0 then (fail .protocolError "secure packet missing conn_id", srv)
  else
    let unknown := (fail .closed "unknown session",
      srv.queuePlainClose C now source packet.h.connId .unknownConnection)
    match srv.sessions.lookup packet.h.connId with
    | none => unknown
    | some ps =>
      if ps.session.endpoint ≠ source then unknown
      else srv.onSession packet.h.connId ps (Party.handleSessionPacket C now packet)

def closeSession (connId : UInt64) (now : UInt64) (reason : CloseReason) (srv : Server) : Server :=
  match srv.sessions.lookup connId with
  | none => srv
  | some ps => srv.store connId ps ((srv.party connId ps).closeSession C now reason)

/-- What a failed packet leads to: a penalty for its source, and the end of the session its
header names. -/
def errorChain (source : Endpoint) (connId : UInt64) (now : UInt64) (e : Failure) (srv : Server) :
    Server :=
  match Party.chainReason (.server srv.config) e.code with
  | none => srv
  | some reason =>
    let srv := srv.noteInvalidPacket source now
    if (e.code = .badPacket ∨ e.code = .truncated) ∧ connId = 0 then srv
    else srv.closeSession C connId now reason

/-- `_on_packet` is called with a handshake packet before it is handled. -/
def showHandshake (source : Endpoint) (packet : PacketView) (srv : Server) : Server :=
  { srv with onPacket := if packet.h.kind = PacketKind.handshake.code then
      srv.onPacket ++ [(source, packet)] else srv.onPacket }

def handlePacket (source : Endpoint) (packet : PacketView) (now : UInt64) (draws : Draws)
    (srv : Server) : Server :=
  let (banned, srv) := srv.endpointIsBanned source now
  if banned then srv
  else
    match (srv.showHandshake source packet).routePacket C N source packet now draws with
    | (.ok (), srv) => srv
    | (.error e, srv) => srv.errorChain C source packet.h.connId now e

/-- The packet belongs to an established session. -/
def isSessionTraffic (packet : PacketView) (srv : Server) : Bool :=
  packet.h.kind ≠ PacketKind.handshake.code && packet.h.connId ≠ 0 &&
    match srv.sessions.lookup packet.h.connId with
    | none => false
    | some ps => ps.session.state = .established

/-- One datagram of `pump_receive`. -/
def receive (source : Endpoint) (datagram : Bytes) (now : UInt64) (draws : Draws) (srv : Server) :
    Server :=
  match parsePacket datagram with
  | .error e =>
    let srv := srv.notePreauthReceive source datagram.length now
    if e.code = .unsupportedVersion then
      srv.queuePlainClose C now source 0 .unsupportedVersion
    else srv.noteInvalidPacket source now
  | .ok packet =>
    let srv := if srv.isSessionTraffic packet then srv
      else srv.notePreauthReceive source datagram.length now
    srv.handlePacket C N source packet now draws

/-! ### Loops -/

/-- Visit the sessions in turn, up to the first error. -/
def visitSessions (f : UInt64 → Server → Result Unit × Server) :
    List UInt64 → Server → Result Unit × Server
  | [], srv => (.ok (), srv)
  | connId :: rest, srv =>
    match f connId srv with
    | (.error e, srv) => (.error e, srv)
    | (.ok (), srv) => visitSessions f rest srv

/-- Session code on a stored session, if it is there. -/
def onStored (f : Party → Result Unit × Party) (connId : UInt64) (srv : Server) :
    Result Unit × Server :=
  match srv.sessions.lookup connId with
  | none => (.ok (), srv)
  | some ps => srv.onSession connId ps f

def pumpReliable (now : UInt64) (srv : Server) : Result Unit × Server :=
  visitSessions (onStored (Party.pumpReliable C now)) srv.sessions.keys srv

/-- A preauth entry outlives the idle timeout since the host was last seen. -/
def preauthExpired (config : ServerConfig) (now : UInt64) (state : PreauthBudgetState) : Bool :=
  state.lastSeenMs ≤ now && config.idleTimeoutMs < now - state.lastSeenMs

def abuseIdle (now : UInt64) (state : IpAbuseState) : Bool :=
  !(now < state.bannedUntilMs) &&
    (state.windowStartedMs = 0 || 5000 < now - state.windowStartedMs) &&
    state.handshakesInWindow = 0 && state.invalidPenaltyScore = 0

def forgetHost (host : Host) (srv : Server) : Server :=
  log (.forgot host) { srv with net := { srv.net with preauth := srv.net.preauth.erase host } }

/-- Entries of hosts that were not seen for long are dropped. -/
def expireTables (now : UInt64) (srv : Server) : Server :=
  let silent := srv.net.preauth.entries.filter fun e => preauthExpired srv.config now e.2
  let idle := srv.ipAbuse.entries.filter fun e => abuseIdle now e.2
  let srv := (silent.map Sigma.fst).foldl (fun srv host => srv.forgetHost host) srv
  { srv with ipAbuse := (idle.map Sigma.fst).foldl (fun t host => t.erase host) srv.ipAbuse }

/-- The eviction at the end reads the clock again (`evictNow`). -/
def runHousekeeping (now evictNow : UInt64) (srv : Server) : Result Unit × Server :=
  match visitSessions (onStored (Party.runHousekeeping C now)) srv.sessions.keys srv with
  | (.error e, srv) => (.error e, srv)
  | (.ok (), srv) => (.ok (), (srv.expireTables now).evictStaleSessions evictNow)

inductive FlushOutcome
  /-- The packet is gone; the pass starts over. -/
  | progressed
  /-- Its session has no budget left; the pass goes on behind it. -/
  | passed
  | stopped (rc : Result Unit)
  deriving DecidableEq

def sendToError (srv : Server) : Result Unit :=
  if srv.net.sockOpen then fail .socketError "sendto() failed"
  else fail .invalidArg "socket not open"

/-- One visit of `flush_pending` to the packet at position `i`; `socket` is what the socket does
with the datagram if it is offered one. -/
def visitPacket (now : UInt64) (i : ℕ) (pkt : PendingPacket) (socket : SocketResult)
    (srv : Server) : FlushOutcome × Server :=
  let socket := if srv.net.sockOpen then socket else .failed
  let len := pkt.bytes.length
  let stopped : FlushOutcome := .stopped (match socket with
    | .failed => srv.sendToError
    | _ => .ok ())
  if pkt.ownerConnId = 0 then
    match socket with
    | .sent =>
      (.progressed, log (.sent pkt) { srv with
        net := (srv.net.notePreauthSend pkt.dest (UInt64.ofNat len) now).removeAt i len })
    | _ => (stopped, srv)
  else
    match srv.sessions.lookup pkt.ownerConnId with
    | none => (.progressed, { srv with net := srv.net.removeAt i len })
    | some owner =>
      let p := srv.party pkt.ownerConnId owner
      let blocked := (owner.session.budget.refillSendBudget now).sendBudgetBytes < UInt64.ofNat len
      match p.flushAt now i socket with
      | (some _, p) => (.progressed, log (.sent pkt) (srv.store pkt.ownerConnId owner p))
      | (none, p) =>
        (if blocked then .passed else stopped, srv.store pkt.ownerConnId owner p)

/-- The passes of `flush_pending`. Each pass reads the clock once (`clock` has the later
readings), each visit has its socket result. A pass visits every packet at most once and the
next pass has one packet less, which bounds `fuel`. -/
def flushLoop : ℕ → ℕ → UInt64 → List UInt64 → List SocketResult → Server → Result Unit × Server
  | 0, _, _, _, _, srv => (.ok (), srv)
  | fuel + 1, i, now, clock, sockets, srv =>
    match srv.net.pending[i]? with
    | none => (.ok (), srv)
    | some pkt =>
      match srv.visitPacket now i pkt (sockets.headD .wouldBlock) with
      | (.progressed, srv) => flushLoop fuel 0 (clock.headD now) clock.tail sockets.tail srv
      | (.passed, srv) => flushLoop fuel (i + 1) now clock sockets.tail srv
      | (.stopped rc, srv) => (rc, srv)

def flushPending (now : UInt64) (clock : List UInt64) (sockets : List SocketResult)
    (srv : Server) : Result Unit × Server :=
  srv.flushLoop ((srv.net.pending.length + 1) ^ 2) 0 now clock sockets

/-- What one call of `recv_from` returns. -/
inductive Arrival
  | datagram (source : Endpoint) (bytes : Bytes) (now : UInt64) (draws : Draws)
  | truncated
  | failed (e : Failure)

/-- The receive loop; it ends when nothing more is there. -/
def pumpReceive : List Arrival → Server → Result Unit × Server
  | [], srv => (.ok (), srv)
  | .datagram source bytes now draws :: rest, srv =>
    pumpReceive rest (srv.receive C N source bytes now draws)
  | .truncated :: rest, srv => pumpReceive rest srv
  | .failed e :: _, srv => (.error e, srv)

/-- The inputs of one `tick`. -/
structure TickInput where
  flushNow : UInt64
  flushClock : List UInt64 := []
  sockets : List SocketResult := []
  reliableNow : UInt64
  arrivals : List Arrival := []
  housekeepingNow : UInt64
  evictNow : UInt64 := housekeepingNow

def tick (t : TickInput) (srv : Server) : Result Unit × Server :=
  match srv.flushPending t.flushNow t.flushClock t.sockets with
  | (.error e, srv) => (.error e, srv)
  | (.ok (), srv) =>
    match srv.pumpReliable C t.reliableNow with
    | (.error e, srv) => (.error e, srv)
    | (.ok (), srv) =>
      -- Without a socket the first `recv_from` fails.
      match srv.pumpReceive C N (if srv.net.sockOpen then t.arrivals
        else [.failed ⟨.invalidArg, "socket not open"⟩]) with
      | (.error e, srv) => (.error e, srv)
      | (.ok (), srv) => srv.runHousekeeping C t.housekeepingNow t.evictNow

/-! ### Calls of the application -/

/-- How far setting up the socket gets. -/
inductive SocketSetup
  | openFailed (e : Failure)
  /-- The socket is open, binding it or making it non-blocking failed. -/
  | bindFailed (e : Failure)
  | ready

def listen (setup : SocketSetup) (secret : Block 32) (srv : Server) : Result Unit × Server :=
  match validateServerConfig srv.config with
  | .error e => (.error e, srv)
  | .ok () =>
    let srv := srv.stop
    let opened := { srv with net := { srv.net with sockOpen := true } }
    match setup with
    | .openFailed e => (.error e, srv)
    | .bindFailed e => (.error e, opened)
    | .ready => (.ok (), { opened with cookieSecret := secret })

def send (endpoint : Endpoint) (connId : UInt64) (options : SendOptions) (type : UInt8)
    (payload : Bytes) (now : UInt64) (srv : Server) : Result Unit × Server :=
  srv.onPeer endpoint connId (Party.send C options type payload now)

def sendPayload (endpoint : Endpoint) (connId : UInt64) (data : Bytes) (srv : Server) :
    Result Unit × Server :=
  srv.onPeer endpoint connId (Party.sendPayload C data)

def closePeer (endpoint : Endpoint) (connId : UInt64) (now : UInt64) (reason : CloseReason)
    (srv : Server) : Result Unit × Server :=
  srv.onPeer endpoint connId (Party.close C now reason)

/-- Send to every established session that is not excluded; the first error is kept. -/
def broadcastLoop (excluded : UInt64 → Bool) (options : SendOptions) (type : UInt8)
    (payload : Bytes) (now : UInt64) :
    List UInt64 → Result Unit → Server → Result Unit × Server
  | [], first, srv => (first, srv)
  | connId :: rest, first, srv =>
    match srv.sessions.lookup connId with
    | none => broadcastLoop excluded options type payload now rest first srv
    | some ps =>
      if ps.session.state ≠ .established ∨ excluded ps.session.connId then
        broadcastLoop excluded options type payload now rest first srv
      else
        let (rc, srv) := srv.send C ps.session.endpoint ps.session.connId options type payload now
        broadcastLoop excluded options type payload now rest
          (if first = .ok () then rc else first) srv

def broadcast (options : SendOptions) (type : UInt8) (payload : Bytes) (now : UInt64)
    (srv : Server) : Result Unit × Server :=
  srv.broadcastLoop C (fun _ => false) options type payload now srv.sessions.keys (.ok ())

def broadcastExcept (excluded : UInt64) (options : SendOptions) (type : UInt8) (payload : Bytes)
    (now : UInt64) (srv : Server) : Result Unit × Server :=
  srv.broadcastLoop C (fun connId => connId = excluded) options type payload now
    srv.sessions.keys (.ok ())

/-- The public operations. -/
inductive Op
  | listen (setup : SocketSetup) (secret : Block 32)
  | stop
  | tick (t : TickInput)
  | send (endpoint : Endpoint) (connId : UInt64) (options : SendOptions) (type : UInt8)
      (payload : Bytes) (now : UInt64)
  | sendPayload (endpoint : Endpoint) (connId : UInt64) (data : Bytes)
  | broadcast (options : SendOptions) (type : UInt8) (payload : Bytes) (now : UInt64)
  | broadcastExcept (excluded : UInt64) (options : SendOptions) (type : UInt8) (payload : Bytes)
      (now : UInt64)
  | closePeer (endpoint : Endpoint) (connId : UInt64) (now : UInt64) (reason : CloseReason)

def step (op : Op) (srv : Server) : Server :=
  match op with
  | .listen setup secret => (srv.listen setup secret).2
  | .stop => srv.stop
  | .tick t => (srv.tick C N t).2
  | .send endpoint connId options type payload now =>
    (srv.send C endpoint connId options type payload now).2
  | .sendPayload endpoint connId data => (srv.sendPayload C endpoint connId data).2
  | .broadcast options type payload now => (srv.broadcast C options type payload now).2
  | .broadcastExcept excluded options type payload now =>
    (srv.broadcastExcept C excluded options type payload now).2
  | .closePeer endpoint connId now reason => (srv.closePeer C endpoint connId now reason).2

def run (ops : List Op) (srv : Server) : Server := ops.foldl (fun srv op => srv.step C N op) srv

end Server

end SecureCnet
