import Mathlib.Data.List.AList
import Mathlib.Data.UInt
import SecureCnet.Server.Token
import SecureCnet.Session.Flush

/-!
# Server state

A server is its sessions with their index by endpoint, the shared packet queue,
and the tables that limit what a host may do before it has a session. Session
code runs on one stored session at a time, through the `Party` it sees.

Hash maps are association lists; a loop over a map visits it in list order, which
stands for the unspecified order of the source. Random bytes are inputs of the
operations that draw them (`Draws`). `history` and the admissions in it are read
by statements only.
-/

namespace SecureCnet

structure IpAbuseState where
  windowStartedMs : UInt64 := 0
  handshakesInWindow : UInt32 := 0
  invalidPenaltyScore : UInt32 := 0
  bannedUntilMs : UInt64 := 0
  deriving DecidableEq, Repr

/-- A session of a server with the handshake it came from. -/
structure PeerSession where
  session : Session
  peerId : UInt64
  clientNonce : Block 16
  serverNonce : Block 16
  clientPublicKey : Block 32
  /-- The token of the hello, if a retry token admitted it. -/
  handshakeRetryToken : Option RetryToken
  /-- The token of the hello, if a resumption token admitted it. -/
  handshakeResumptionToken : Option ResumptionToken
  deriving DecidableEq

/-- The hello `queue_server_hello` puts together from the saved fields. -/
def PeerSession.clientHello (ps : PeerSession) : ClientHello :=
  ⟨ps.clientPublicKey, ps.clientNonce, ps.handshakeRetryToken, ps.handshakeResumptionToken⟩

/-- A session that was stored, the hello that asked for it, and when. -/
structure Admission where
  source : Endpoint
  hello : ClientHello
  now : UInt64
  cookieSecret : Block 32
  peer : PeerSession
  deriving DecidableEq

inductive ServerEvent
  /-- Bytes were counted as received from a host without an established session. -/
  | counted (host : Host) (bytes : ℕ)
  /-- A datagram was handed to the socket. -/
  | sent (pkt : PendingPacket)
  /-- The preauth entry of a host was dropped. -/
  | forgot (host : Host)
  | admitted (a : Admission)
  /-- All tables were cleared. -/
  | cleared
  deriving DecidableEq

structure Server where
  config : ServerConfig := {}
  net : Transport := {}
  nextPeerId : UInt64 := 1
  sessions : AList fun _ : UInt64 => PeerSession := ∅
  endpointToConn : AList fun _ : Endpoint => UInt64 := ∅
  ipAbuse : AList fun _ : Host => IpAbuseState := ∅
  cookieSecret : Block 32 := Block.zero 32
  history : List ServerEvent := []
  /-- The handshake packets `_on_packet` was called with; read by statements only. -/
  onPacket : List (Endpoint × PacketView) := []
  deriving DecidableEq

/-- The random values one datagram may use up. -/
structure Draws where
  /-- Candidates of `allocate_conn_id`, in the order drawn. -/
  connIds : List UInt64 := []
  /-- Candidates for a ticket id, in the order drawn. -/
  tickets : List UInt64 := []
  serverNonce : Block 16 := Block.zero 16
  /-- What the ephemeral key pair is generated from. -/
  seed : Block 32 := Block.zero 32
  deriving DecidableEq, Repr

def Draws.ticketId (draws : Draws) : UInt64 := (draws.tickets.find? (· ≠ 0)).getD 1

namespace Server

variable (C : Crypto) (N : InetNtop)

def log (e : ServerEvent) (srv : Server) : Server := { srv with history := srv.history ++ [e] }

/-! ### Running session code -/

/-- Reassembly memory of every session but one. -/
def otherMemory (connId : UInt64) (srv : Server) : UInt64 :=
  ((srv.sessions.erase connId).entries.map fun e => e.2.session.reassembler.memoryBytes).sum

/-- What the code of a stored session sees. -/
def party (connId : UInt64) (ps : PeerSession) (srv : Server) : Party where
  side := .server srv.config
  session := ps.session
  net := srv.net
  otherMemory := srv.otherMemory connId

/-- Write back what the code of a stored session did. -/
def store (connId : UInt64) (ps : PeerSession) (p : Party) (srv : Server) : Server :=
  { srv with
    net := p.net
    sessions := srv.sessions.insert connId { ps with session := p.session } }

def onSession {α : Type} (connId : UInt64) (ps : PeerSession) (f : Party → α × Party)
    (srv : Server) : α × Server :=
  let (a, p) := f (srv.party connId ps)
  (a, srv.store connId ps p)

/-- Run code on the session a peer handle names. -/
def onPeer (endpoint : Endpoint) (connId : UInt64) (f : Party → Result Unit × Party)
    (srv : Server) : Result Unit × Server :=
  match srv.sessions.lookup connId with
  | none => (fail .closed "unknown peer session", srv)
  | some ps =>
    if ps.session.endpoint ≠ endpoint then (fail .closed "unknown peer session", srv)
    else srv.onSession connId ps f

/-! ### Tables of hosts -/

def abuseStateFor (endpoint : Endpoint) (srv : Server) : IpAbuseState :=
  (srv.ipAbuse.lookup endpoint.hostKey).getD {}

def setAbuseState (endpoint : Endpoint) (state : IpAbuseState) (srv : Server) : Server :=
  { srv with ipAbuse := srv.ipAbuse.insert endpoint.hostKey state }

/-- Looking a host up makes an entry for it. -/
def endpointIsBanned (endpoint : Endpoint) (now : UInt64) (srv : Server) : Bool × Server :=
  let state := srv.abuseStateFor endpoint
  (now < state.bannedUntilMs, srv.setAbuseState endpoint state)

def endpointRateLimited (endpoint : Endpoint) (now : UInt64) (srv : Server) : Bool × Server :=
  let state := srv.abuseStateFor endpoint
  let state := if state.windowStartedMs = 0 ∨ now < state.windowStartedMs ∨
      1000 ≤ now - state.windowStartedMs then
    { state with windowStartedMs := now, handshakesInWindow := 0 } else state
  if srv.config.abuse.perIpHandshakeRateLimitPerSecond ≤ state.handshakesInWindow then
    (true, srv.setAbuseState endpoint state)
  else
    (false, srv.setAbuseState endpoint
      { state with handshakesInWindow := state.handshakesInWindow + 1 })

def noteInvalidPacket (endpoint : Endpoint) (now : UInt64) (srv : Server) : Server :=
  let state := srv.abuseStateFor endpoint
  if now < state.bannedUntilMs then srv.setAbuseState endpoint state
  else
    let score := state.invalidPenaltyScore + 1
    srv.setAbuseState endpoint
      (if srv.config.abuse.invalidPacketBanThreshold ≤ score then
        { state with
          invalidPenaltyScore := 0
          bannedUntilMs := now + srv.config.abuse.invalidPacketBanMs }
      else { state with invalidPenaltyScore := score })

def notePreauthReceive (endpoint : Endpoint) (bytes : ℕ) (now : UInt64) (srv : Server) : Server :=
  let state := srv.net.preauthStateFor endpoint.hostKey
  let state := { state with
    bytesReceived := state.bytesReceived + UInt64.ofNat bytes, lastSeenMs := now }
  log (.counted endpoint.hostKey bytes)
    { srv with net := { srv.net with preauth := srv.net.preauth.insert endpoint.hostKey state } }

/-! ### Unencrypted packets -/

/-- A packet in the clear takes a stateless number, and leaves silently nothing behind when it
would amplify. -/
def queuePlain (now : UInt64) (dest : Endpoint) (kind : PacketKind) (payload : Bytes)
    (connId ownerConnId : UInt64) (srv : Server) : Result Unit × Server :=
  let seq := srv.net.statelessSeq
  let (rc, net) := Transport.queuePlainPacket C srv.config now dest kind payload connId seq .high
    ownerConnId { srv.net with statelessSeq := seq + 1 }
  (rc, { srv with net })

def queueRetry (now : UInt64) (dest : Endpoint) (token : RetryToken) (srv : Server) :
    Result Unit × Server :=
  match writeRetry ⟨64, []⟩ token with
  | .error e => (.error e, srv)
  | .ok w => srv.queuePlain C now dest .handshake w.out 0 0

/-- A close frame in the clear that belongs to no session. -/
def queuePlainClose (now : UInt64) (dest : Endpoint) (connId : UInt64) (reason : CloseReason)
    (srv : Server) : Server :=
  match writeCloseFrame ⟨8, []⟩ reason with
  | .error _ => srv
  | .ok w => (srv.queuePlain C now dest .close w.out connId 0).2

/-- The server hello of a session, before its MAC is computed. -/
def helloBody (now : UInt64) (draws : Draws) (ps : PeerSession) (srv : Server) : ServerHello where
  serverConnId := ps.session.connId
  serverPublicKey := ps.session.ephemeral.publicKey
  serverNonce := ps.serverNonce
  transcriptMac := Block.zero 16
  resumptionToken :=
    if srv.config.enableSessionResumption then
      some (makeResumptionToken C N srv.cookieSecret ps.session.endpoint now draws.ticketId)
    else none

def queueServerHello (now : UInt64) (draws : Draws) (ps : PeerSession) (srv : Server) :
    Result Unit × Server :=
  let body := srv.helloBody C N now draws ps
  let payload : Result Bytes := do
    let transcript ← buildTranscriptMacInput ps.clientHello body 320
    let mac ← cryptoKeyedHash C ps.session.keys.tx transcript
    let w ← writeServerHello ⟨192, []⟩ { body with transcriptMac := mac }
    return w.out
  match payload with
  | .error e => (.error e, srv)
  | .ok payload =>
    srv.queuePlain C now ps.session.endpoint .handshake payload ps.session.connId
      ps.session.connId

/-! ### The session table -/

def findSessionByEndpoint (endpoint : Endpoint) (srv : Server) : Option PeerSession :=
  match srv.endpointToConn.lookup endpoint with
  | none => none
  | some connId => srv.sessions.lookup connId

def evictSession (connId : UInt64) (srv : Server) : Server :=
  match srv.sessions.lookup connId with
  | none => srv
  | some ps => { srv with
      sessions := srv.sessions.erase connId
      endpointToConn := srv.endpointToConn.erase ps.session.endpoint }

/-- Closed, or closing and drained. -/
def isStale (config : ServerConfig) (now : UInt64) (s : Session) : Bool :=
  s.state = .closed || (s.state = .closing && s.lastSendMs ≠ 0 &&
    config.closeDrainMs ≤ now - s.lastSendMs)

def doomed (now : UInt64) (srv : Server) : List UInt64 :=
  (srv.sessions.entries.filter fun e => isStale srv.config now e.2.session).map Sigma.fst

def evictStaleSessions (now : UInt64) (srv : Server) : Server :=
  (srv.doomed now).foldl (fun srv connId => srv.evictSession connId) srv

/-- An id that can be given to a new session. -/
def usable (srv : Server) (connId : UInt64) : Bool :=
  connId ≠ 0 && (srv.sessions.lookup connId).isNone

/-- The loop of `allocate_conn_id` on the given candidates; past the list the random source is
taken to go through the numbers from 1 on. -/
def allocateConnId (candidates : List UInt64) (srv : Server) : UInt64 :=
  let spare := (List.range (srv.sessions.keys.length + 1)).map fun i => UInt64.ofNat (i + 1)
  ((candidates ++ spare).find? srv.usable).getD 0

def sessionsForHost (host : Host) (srv : Server) : ℕ :=
  srv.sessions.entries.countP fun e => e.2.session.endpoint.hostKey = host

/-- `_sessions.emplace` and the entry of the endpoint. -/
def emplace (a : Admission) (srv : Server) : Server :=
  log (.admitted a) { srv with
    sessions := srv.sessions.insert a.peer.session.connId a.peer
    endpointToConn := srv.endpointToConn.insert a.source a.peer.session.connId }

/-- Everything is dropped and the socket closed. -/
def stop (srv : Server) : Server :=
  log .cleared { srv with
    net := {}
    sessions := ∅
    endpointToConn := ∅
    ipAbuse := ∅ }

end Server

end SecureCnet
