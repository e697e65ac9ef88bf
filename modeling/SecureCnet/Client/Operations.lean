import SecureCnet.Session.Flush
import SecureCnet.Wire.HandshakeCodec

/-!
# Client

A client is one session with what it needs to set it up: the tokens it holds, its
nonce and whether it tries to resume. Established, it runs the session code on the
`Party` it is. The clock is read once for every call and for every visit of a loop.
`wire`, the datagrams handed to the socket, and `received`, those taken from it since
the last `connect`, are read by statements only.
-/

namespace SecureCnet

structure Client where
  config : ClientConfig := {}
  session : Session := {}
  net : Transport := {}
  retryToken : Option RetryToken := none
  resumptionToken : Option ResumptionToken := none
  clientNonce : Block 16 := Block.zero 16
  /-- `_attempted_resumption_this_connect`. -/
  attemptedResumption : Bool := false
  wire : List Bytes := []
  received : List Bytes := []
  deriving DecidableEq

namespace Client

variable (C : Crypto)

/-- What the session code sees. -/
def party (c : Client) : Party where
  side := .client c.config
  session := c.session
  net := c.net

def withParty (p : Party) (c : Client) : Client := { c with session := p.session, net := p.net }

def onParty (f : Party → Result Unit × Party) (c : Client) : Result Unit × Client :=
  let (rc, p) := f c.party
  (rc, c.withParty p)

/-! ### Setting up and tearing down -/

def resetSession (now : UInt64) (c : Client) : Client :=
  let s := c.session
  let congestion := s.budget.congestion.resetRuntime
  { c with
    net := { c.net with pending := [], pendingBytes := 0 }
    retryToken := none
    clientNonce := Block.zero 16
    attemptedResumption := false
    session := { s with
      connId := 0
      sendSeq := 1
      startedMs := 0
      lastRecvMs := 0
      lastSendMs := 0
      budget := ⟨congestion, congestion.rateBytesPerSecond, now⟩
      nextFragmentMessageId := 1
      nextOrderedSequence := 1
      nextSequencedSequence := 1
      packetWindow := {}
      reliable := (s.reliable.configure c.config.reliability).clear
      orderedReliable := (s.orderedReliable.configure c.config.reliability).clear
      ordered := { s.ordered with
        maxBuffered := c.config.reliability.orderedReceiveWindow }.clear
      sequenced := {}
      reassembler := (s.reassembler.configure c.config.fragmentation).clear
      keys := .cleared
      ephemeral := .cleared
      trace := [] } }

/-- A client as it is constructed. -/
def create (config : ClientConfig) (now : UInt64) : Client :=
  let congestion := CongestionController.configure config.congestion
    config.sendBudgetBytesPerSecond {}
  { config
    session :=
      { budget := ⟨congestion, congestion.rateBytesPerSecond, now⟩
        reliable := ReliableSession.configure config.reliability {}
        orderedReliable := ReliableSession.configure config.reliability {}
        ordered := { maxBuffered := config.reliability.orderedReceiveWindow }
        reassembler := FragmentReassembler.configure config.fragmentation {} } }

def failConnection (reason : CloseReason) (c : Client) : Client :=
  c.withParty (c.party.failConnection reason)

def stop (now : UInt64) (c : Client) : Client :=
  let c := { c with net := { c.net with sockOpen := false } }.resetSession now
  { c with session := { c.session.transitionState .idle with closeReason := .normal } }

def resetForConnect (now : UInt64) (c : Client) : Result Client :=
  match validateClientConfig c.config with
  | .error e => .error e
  | .ok () =>
    let c := (c.stop now).resetSession now
    .ok { c with session := Session.transitionState .idle { c.session with closeReason := .normal } }

/-! ### Sending the hello -/

/-- The hello of the current attempt. -/
def currentHello (c : Client) : ClientHello where
  clientPublicKey := c.session.ephemeral.publicKey
  clientNonce := c.clientNonce
  retryToken := c.retryToken
  resumptionToken :=
    if c.config.enableSessionResumption && c.retryToken.isNone && c.attemptedResumption then
      c.resumptionToken
    else none

/-- The clock and the socket at each visit of a flush loop. -/
abbrev Visits := List (UInt64 × SocketResult)

/-- One visit of `flush_pending`, with what it returns if the loop ends there. -/
def visitHead (now : UInt64) (socket : SocketResult) (c : Client) : Option (Result Unit) × Client :=
  let socket := if c.net.sockOpen then socket else .failed
  match c.party.flushAt now 0 socket with
  | (some bytes, p) => (none, { c.withParty p with wire := c.wire ++ [bytes] })
  | (none, p) =>
    let blocked := match c.net.pending with
      | [] => true
      | pkt :: _ => (c.session.budget.refillSendBudget now).sendBudgetBytes <
          UInt64.ofNat pkt.bytes.length
    (some (if blocked || socket ≠ .failed then .ok ()
      else if c.net.sockOpen then fail .socketError "send() failed"
      else fail .invalidArg "socket not open"), c.withParty p)

/-- Each visit takes a packet off the queue or ends the loop, which bounds `fuel`. -/
def flushLoop : ℕ → Visits → Client → Result Unit × Client
  | 0, _, c => (.ok (), c)
  | fuel + 1, visits, c =>
    if c.net.pending = [] then (.ok (), c)
    else
      let (now, socket) := visits.headD (0, .wouldBlock)
      match c.visitHead now socket with
      | (none, c) => flushLoop fuel visits.tail c
      | (some rc, c) => (rc, c)

def flushPending (visits : Visits) (c : Client) : Result Unit × Client :=
  c.flushLoop c.net.pending.length visits

def sendClientHello (visits : Visits) (c : Client) : Result Unit × Client :=
  match writeClientHello ⟨128, []⟩ c.currentHello with
  | .error e => (.error e, c)
  | .ok w =>
    match c.onParty (Party.queuePacketClient C c.config .handshake false w.out .high) with
    | (.error e, c) => (.error e, c)
    | (.ok (), c) => c.flushPending visits

/-- The loopback address stands in for the unspecified one. -/
def normalizeConnectEndpoint : Endpoint → Endpoint
  | .ipv4 addr port => .ipv4 (if addr = Block.zero 4 then Block.loopback4 else addr) port
  | .ipv6 addr scopeId port =>
    .ipv6 (if addr = Block.zero 16 then Block.loopback6 else addr) scopeId port
  | .uninitialized => .uninitialized

/-- How far setting up the socket gets. -/
inductive SocketSetup
  | openFailed (e : Failure)
  /-- The socket is open, connecting it or making it non-blocking failed. -/
  | connectFailed (e : Failure)
  | ready

/-- The state in which a hello is sent: key pair and nonce are drawn and nothing else is known. -/
def beginHandshake (seed : Block 32) (nonce : Block 16) (now : UInt64) (c : Client) : Client :=
  { c with
    clientNonce := nonce
    attemptedResumption := c.config.enableSessionResumption && c.resumptionToken.isSome
    session := Session.transitionState .handshaking
      { c.session with ephemeral := C.kxKeypair seed, startedMs := now } }

def connect (server : Endpoint) (setup : SocketSetup) (seed : Block 32) (nonce : Block 16)
    (now : UInt64) (visits : Visits) (c : Client) : Result Unit × Client :=
  match c.resetForConnect now with
  | .error e => (.error e, c)
  | .ok c =>
    let c := { c with
      received := []
      session := { c.session with endpoint := normalizeConnectEndpoint server } }
    let opened := { c with net := { c.net with sockOpen := true } }
    match setup with
    | .openFailed e => (.error e, c)
    | .connectFailed e => (.error e, opened)
    | .ready => (opened.beginHandshake C seed nonce now).sendClientHello C visits

/-! ### Handshake packets -/

def handleRetryPacket (visits : Visits) (packet : PacketView) (c : Client) :
    Result Unit × Client :=
  match readRetry packet.payload with
  | .error e => (.error e, c)
  | .ok token => { c with retryToken := some token }.sendClientHello C visits

/-- The keys a server hello leads to, if its MAC is the one of the current hello. -/
def verifyServerHello (hello : ServerHello) (c : Client) : Result SessionKeys := do
  let keys ← cryptoDeriveClientSessionKeys C c.session.ephemeral hello.serverPublicKey
  let transcript ← buildTranscriptMacInput c.currentHello hello 320
  let mac ← cryptoKeyedHash C keys.rx transcript
  if mac ≠ hello.transcriptMac then fail .authFailed "server hello MAC mismatch"
  else return keys

/-- Keys and connection id of a verified server hello are taken over. -/
def adoptSession (keys : SessionKeys) (hello : ServerHello) (now : UInt64) (c : Client) : Client :=
  { c with
    resumptionToken := hello.resumptionToken
    session := { c.session with
      keys
      ephemeral := { c.session.ephemeral with secretKey := Block.zero 32 }
      connId := hello.serverConnId
      packetWindow := {}
      lastRecvMs := now } }

def handleServerHelloPacket (now : UInt64) (packet : PacketView) (c : Client) :
    Result Unit × Client :=
  match readServerHello packet.payload with
  | .error e => (.error e, c)
  | .ok hello =>
    match c.verifyServerHello C hello with
    | .error e => (.error e, c)
    | .ok keys =>
      match (c.adoptSession keys hello now).onParty (Party.queueKeepalive C) with
      | (.error e, c) => (.error e, c.failConnection .internalError)
      | (.ok (), c) => (.ok (), { c with session := c.session.transitionState .established })

def handleHandshakePacket (now : UInt64) (visits : Visits) (packet : PacketView) (c : Client) :
    Result Unit × Client :=
  if packetHeaderEncrypted packet.h then
    (fail .protocolError "encrypted handshake packet is illegal", c)
  else if c.session.state ≠ .handshaking then
    (fail .stateError "handshake packet received in wrong state", c)
  else
    match packet.payload with
    | [] => (fail .badPacket "empty handshake packet", c)
    | type :: _ =>
      if type = HandshakeType.retry.code then c.handleRetryPacket C visits packet
      else if type = HandshakeType.serverHello.code then c.handleServerHelloPacket C now packet
      else (fail .protocolError "unexpected handshake packet type", c)

/-! ### Packets -/

/-- Hand a packet to whatever it is for. -/
def routePacket (now : UInt64) (visits : Visits) (packet : PacketView) (c : Client) :
    Result Unit × Client :=
  if packet.h.kind = PacketKind.handshake.code then c.handleHandshakePacket C now visits packet
  else if packet.h.kind = PacketKind.close.code ∧ c.session.state = .handshaking ∧
      !packetHeaderEncrypted packet.h then
    match readCloseFrame packet.payload with
    | .error e => (.error e, c)
    | .ok reason => (.ok (), c.withParty (c.party.remoteClose reason))
  else c.onParty (Party.handleEstablishedPacket C now packet)

def handlePacket (now : UInt64) (visits : Visits) (packet : PacketView) (c : Client) : Client :=
  match c.routePacket C now visits packet with
  | (.ok (), c) => c
  | (.error e, c) =>
    match Party.chainReason (.client c.config) e.code with
    | none => c
    | some reason => c.failConnection reason

/-- One datagram of `pump_receive`. -/
def receive (datagram : Bytes) (now : UInt64) (visits : Visits) (c : Client) : Client :=
  let c := { c with received := c.received ++ [datagram] }
  match parsePacket datagram with
  | .error e => c.failConnection
      (if e.code = .unsupportedVersion then .unsupportedVersion else .invalidPacket)
  | .ok packet => c.handlePacket C now visits packet

/-! ### Loops -/

/-- What one call of `recv` returns. -/
inductive Arrival
  | datagram (bytes : Bytes) (now : UInt64) (visits : Visits)
  | truncated
  | failed (e : Failure)

/-- The receive loop; it ends when nothing more is there, or with the connection. -/
def pumpReceive : List Arrival → Client → Result Unit × Client
  | [], c => (.ok (), c)
  | .datagram bytes now visits :: rest, c =>
    let c := c.receive C bytes now visits
    if c.session.state = .closed then (.ok (), c) else pumpReceive rest c
  | .truncated :: rest, c => pumpReceive rest c
  | .failed e :: _, c => (.error e, c)

/-- The inputs of one `tick`. -/
structure TickInput where
  flushVisits : Visits := []
  reliableNow : UInt64
  arrivals : List Arrival := []
  housekeepingNow : UInt64

def tick (t : TickInput) (c : Client) : Result Unit × Client :=
  match c.flushPending t.flushVisits with
  | (.error e, c) => (.error e, c)
  | (.ok (), c) =>
    match c.onParty (Party.pumpReliable C t.reliableNow) with
    | (.error e, c) => (.error e, c)
    | (.ok (), c) =>
      -- Without a socket the first `recv` fails.
      match c.pumpReceive C (if c.net.sockOpen then t.arrivals
        else [.failed ⟨.invalidArg, "socket not open"⟩]) with
      | (.error e, c) => (.error e, c)
      | (.ok (), c) => c.onParty (Party.runHousekeeping C t.housekeepingNow)

/-- The public operations. -/
inductive Op
  | connect (server : Endpoint) (setup : SocketSetup) (seed : Block 32) (nonce : Block 16)
      (now : UInt64) (visits : Visits)
  | stop (now : UInt64)
  | tick (t : TickInput)
  | send (options : SendOptions) (type : UInt8) (payload : Bytes) (now : UInt64)
  | sendPayload (data : Bytes)
  | close (now : UInt64) (reason : CloseReason)

def step (op : Op) (c : Client) : Client :=
  match op with
  | .connect server setup seed nonce now visits =>
    (c.connect C server setup seed nonce now visits).2
  | .stop now => c.stop now
  | .tick t => (c.tick C t).2
  | .send options type payload now => (c.onParty (Party.send C options type payload now)).2
  | .sendPayload data => (c.onParty (Party.sendPayload C data)).2
  | .close now reason => (c.onParty (Party.close C now reason)).2

/-- One datagram, one visit of a loop, or one call. -/
inductive Act
  | connect (server : Endpoint) (setup : SocketSetup) (seed : Block 32) (nonce : Block 16)
      (now : UInt64) (visits : Visits)
  | stop (now : UInt64)
  | visit (now : UInt64) (socket : SocketResult)
  | pumpReliable (now : UInt64)
  | receive (datagram : Bytes) (now : UInt64) (visits : Visits)
  | housekeep (now : UInt64)
  | send (options : SendOptions) (type : UInt8) (payload : Bytes) (now : UInt64)
  | sendPayload (data : Bytes)
  | close (now : UInt64) (reason : CloseReason)

def act (a : Act) (c : Client) : Client :=
  match a with
  | .connect server setup seed nonce now visits =>
    (c.connect C server setup seed nonce now visits).2
  | .stop now => c.stop now
  | .visit now socket => (c.visitHead now socket).2
  | .pumpReliable now => (c.onParty (Party.pumpReliable C now)).2
  | .receive datagram now visits =>
    -- Nothing arrives at a closed socket.
    if c.net.sockOpen then c.receive C datagram now visits else c
  | .housekeep now => (c.onParty (Party.runHousekeeping C now)).2
  | .send options type payload now => (c.onParty (Party.send C options type payload now)).2
  | .sendPayload data => (c.onParty (Party.sendPayload C data)).2
  | .close now reason => (c.onParty (Party.close C now reason)).2

def acts (l : List Act) (c : Client) : Client := l.foldl (fun c a => c.act C a) c

end Client

end SecureCnet
