import SecureCnet.Session.Send

/-!
# Receiving

From a parsed packet to the application: authentication, replay filtering, the
frames of a message packet, and delivery by channel. A reliable frame is
acknowledged before its id is looked at. A frame of type `Fragment` on a reliable
channel is taken as a fragment if it parses as one, and as user data otherwise.
-/

namespace SecureCnet

namespace Session

def emitMessage (msg : MsgView) (s : Session) : Session := s.log (.emitted msg)

def deliverApplicationMessage (channel : Channel) (type : UInt8) (data : Bytes)
    (deliverySequence : UInt64) (s : Session) : Result Unit × Session :=
  if channel = .reliableOrdered then
    match s.ordered.accept deliverySequence type data with
    | (.error e, ordered) =>
      (if e.code = .queueFull then .ok () else .error e, { s with ordered })
    | (.ok released, ordered) =>
      (.ok (), released.foldl (fun s m => s.emitMessage ⟨.reliableOrdered, m.1, m.2⟩)
        { s with ordered })
  else if channel = .sequencedUnreliable then
    let (fresh, sequenced) := s.sequenced.accept deliverySequence
    let s := { s with sequenced }
    (.ok (), if fresh then s.emitMessage ⟨.sequencedUnreliable, type, data⟩ else s)
  else (.ok (), s.emitMessage ⟨channel, type, data⟩)

/-- A client starts to close. -/
def startClosing (reason : CloseReason) (s : Session) : Session :=
  transitionState .closing { s with closeReason := reason }

def deliverReassembledMessage (m : FragmentedMessage) (s : Session) : Result Unit × Session :=
  (s.log (.reassembled m)).deliverApplicationMessage m.channel m.type m.payload m.deliverySequence

end Session

variable (C : Crypto)

namespace Party

/-- The server-wide reassembly quota refuses a new message. -/
def overServerQuota (f : FragmentView) (p : Party) : Bool :=
  match p.side with
  | .client _ => false
  | .server config =>
    !p.session.reassembler.contains f.messageId &&
      config.abuse.maxTotalReassemblyMemoryServer <
        (p.otherMemory + p.session.reassembler.memoryBytes) + f.originalLength.toUInt64

def handleFragmentPayload (now : UInt64) (f : FragmentView) (p : Party) : Result Unit × Party :=
  if p.overServerQuota f then (.ok (), p)
  else
    let (rc, reassembler, s) :=
      p.session.reassembler.accept now f Session.deliverReassembledMessage p.session
    let p := { p with session := { s with reassembler } }
    match rc with
    | .error e => (if e.code = .queueFull ∨ e.code = .tooLarge then .ok () else .error e, p)
    | .ok () => (.ok (), p)

/-- Run a delivery; its failure is a violation with the given reason. -/
def orViolation (now : UInt64) (reason : CloseReason) : Result Unit × Party → Party
  | (.ok (), p) => p
  | (.error _, p) => p.violation C now reason

def onSession (f : Session → Result Unit × Session) (p : Party) : Result Unit × Party :=
  let (rc, session) := f p.session
  (rc, { p with session })

def dispatchAck (now : UInt64) (data : Bytes) (p : Party) : Party :=
  match readReliableAck data with
  | .error _ => p.violation C now .invalidPacket
  | .ok (channel, messageId) =>
    let (ack, rs) := (p.session.reliableFor channel).acknowledge messageId now
    let p := (p.mapSession (Session.setReliable channel rs)).log
      (.reported ⟨channel, messageId, ack⟩)
    if ack.removed then
      (p.log (.acked channel messageId)).mapSession fun s =>
        { s with budget := s.budget.onAck ack }
    else p

def dispatchControl (now : UInt64) (msg : MsgView) (p : Party) : Party :=
  if msg.type = ControlType.reliableAck.code then p.dispatchAck C now msg.data
  else if msg.type = ControlType.fragment.code then
    match readFragmentPayload msg.data with
    | .error _ => p.violation C now .invalidPacket
    | .ok f => orViolation C now .invalidPacket (p.handleFragmentPayload now f)
  else p.violation C now .protocolError

/-- The user data of an accepted reliable frame. -/
def dispatchUserData (now : UInt64) (channel : Channel) (messageId : UInt64) (type : UInt8)
    (data : Bytes) (p : Party) : Party :=
  if channel = .reliableOrdered then
    match readOrderedPayload data with
    | .error _ => p.violation C now .invalidPacket
    | .ok (sequence, user) =>
      orViolation C now .protocolError
        ((p.log (.passed channel messageId type user)).onSession
          (Session.deliverApplicationMessage .reliableOrdered type user sequence))
  else
    orViolation C now .protocolError
      ((p.log (.passed channel messageId type data)).onSession
        (Session.deliverApplicationMessage .reliable type data 0))

def acceptIncoming (channel : Channel) (messageId : UInt64) (p : Party) : Bool × Party :=
  let (fresh, rs) := (p.session.reliableFor channel).acceptIncoming messageId
  let p := p.mapSession (Session.setReliable channel rs)
  (fresh, if fresh then p.log (.accepted channel messageId) else p)

/-- An accepted reliable frame: a fragment if it looks like one, else user data. -/
def dispatchBody (now : UInt64) (channel : Channel) (messageId : UInt64) (type : UInt8)
    (data : Bytes) (p : Party) : Party :=
  if type = ControlType.fragment.code then
    match readFragmentPayload data with
    | .ok f => orViolation C now .invalidPacket (p.handleFragmentPayload now f)
    | .error _ => p.dispatchUserData C now channel messageId type data
  else p.dispatchUserData C now channel messageId type data

def dispatchReliable (now : UInt64) (msg : MsgView) (p : Party) : Party :=
  match readReliablePayload msg.data with
  | .error _ => p.violation C now .invalidPacket
  | .ok (messageId, data) =>
    let (_, p) := p.queueControlAck C msg.channel messageId
    let (fresh, p) := p.acceptIncoming msg.channel messageId
    if fresh then p.dispatchBody C now msg.channel messageId msg.type data else p

def dispatchMessageFrame (now : UInt64) (msg : MsgView) (p : Party) : Party :=
  match msg.channel with
  | .control => p.dispatchControl C now msg
  | .reliable | .reliableOrdered => p.dispatchReliable C now msg
  | .sequencedUnreliable =>
    match readSequencedPayload msg.data with
    | .error _ => p.violation C now .invalidPacket
    | .ok (sequence, data) =>
      orViolation C now .protocolError (p.onSession
        (Session.deliverApplicationMessage .sequencedUnreliable msg.type data sequence))
  | .unreliable =>
    orViolation C now .protocolError (p.onSession
      (Session.deliverApplicationMessage .unreliable msg.type msg.data 0))

/-- The frame loop; every frame has at least one byte, so `fuel` is the input's length. -/
def dispatchFrames (now : UInt64) : ℕ → Bytes → Party → Party
  | 0, _, p => p
  | fuel + 1, r, p =>
    match readMessage r with
    | .error e => if e.code = .endOfStream then p else p.violation C now .invalidPacket
    | .ok (msg, r) =>
      let p := p.dispatchMessageFrame C now msg
      if p.session.state = .closed then p else dispatchFrames now fuel r p

def dispatchMessagePayload (now : UInt64) (payload : Bytes) (p : Party) : Party :=
  p.dispatchFrames C now (payload.length + 1) payload

/-- Authenticate and decrypt a packet under the session's receive key. -/
def openPacket (packet : PacketView) (p : Party) : Result Bytes := do
  let aad ← writePacketHeader ⟨NetConfig.packetHeaderBytes, []⟩ packet.h
  cryptoAeadDecrypt C p.session.keys.rx (cryptoMakePacketNonce packet.h.connId packet.h.seq)
    aad.out packet.payload NetConfig.maxEncryptedPlaintextBytes

/-- The plaintext of a packet that is authentic and not a replay. -/
def authenticate (now : UInt64) (packet : PacketView) (p : Party) : Result Bytes × Party :=
  match p.openPacket C packet with
  | .error e => (.error e, p)
  | .ok plaintext =>
    if packet.h.seq = 0 then (fail .protocolError "encrypted packet sequence is invalid", p)
    else
      let (fresh, packetWindow) := p.session.packetWindow.accept packet.h.seq
      let p := p.mapSession fun s => { s with packetWindow }
      if !fresh then (fail .replay "replayed packet", p)
      else (.ok plaintext, p.mapSession fun s => { s with lastRecvMs := now })

/-- A client closes at once when the server says so. -/
def remoteClose (reason : CloseReason) (p : Party) : Party :=
  { p with
    net := { p.net with pending := [], pendingBytes := 0, sockOpen := false }
    session := Session.transitionState .closed { p.session with
      closeReason := reason
      keys := .cleared
      reliable := p.session.reliable.clear
      orderedReliable := p.session.orderedReliable.clear } }

/-- `Client::handle_established_packet`. -/
def handleEstablishedPacket (now : UInt64) (packet : PacketView) (p : Party) :
    Result Unit × Party :=
  if !packetHeaderEncrypted packet.h then (fail .protocolError "unencrypted secure packet", p)
  else if p.session.keys.empty then (fail .stateError "session keys missing", p)
  else if packet.h.connId ≠ p.session.connId then
    (fail .protocolError "unexpected connection id", p)
  else
    match p.authenticate C now packet with
    | (.error e, p) => (.error e, p)
    | (.ok plaintext, p) =>
      match PacketKind.ofCode packet.h.kind with
      | some .raw => (.ok (), p)
      | some .message =>
        let p := p.dispatchMessagePayload C now plaintext
        (if p.session.state = .closed then fail .closed "connection closed" else .ok (), p)
      | some .keepalive => (.ok (), p)
      | some .close =>
        match readCloseFrame plaintext with
        | .error e => (.error e, p)
        | .ok reason => (fail .closed "remote closed connection", p.remoteClose reason)
      | some .handshake => (fail .protocolError "handshake packet in secure path", p)
      | none => (fail .protocolError "unknown packet kind", p)

/-- The first authentic packet establishes a server session, and `_on_packet` sees each of them
in the clear. -/
def showPacket (packet : PacketView) (plaintext : Bytes) (p : Party) : Party :=
  let p := if p.session.state = .handshaking then
    p.mapSession (Session.transitionState .established) else p
  p.log (.onPacket ⟨{ packet.h with payloadLen := UInt32.ofNat plaintext.length }, plaintext⟩)

/-- `Server::handle_session_packet`. -/
def handleSessionPacket (now : UInt64) (packet : PacketView) (p : Party) : Result Unit × Party :=
  if packet.h.kind = PacketKind.handshake.code then
    (fail .protocolError "handshake packet not allowed for session", p)
  else if !packetHeaderEncrypted packet.h then
    (fail .protocolError "unencrypted secure packet", p)
  else if packet.h.connId ≠ p.session.connId then
    (fail .protocolError "connection id mismatch", p)
  else
    match p.authenticate C now packet with
    | (.error e, p) => (.error e, p)
    | (.ok plaintext, p) =>
      let p := p.showPacket packet plaintext
      match PacketKind.ofCode packet.h.kind with
      | some .raw => (.ok (), p)
      | some .message => (.ok (), p.dispatchMessagePayload C now plaintext)
      | some .keepalive => (.ok (), p)
      | some .close =>
        match readCloseFrame plaintext with
        | .error e => (.error e, p)
        | .ok reason =>
          (.ok (), if p.session.state ≠ .closing then p.closeSession C now reason
            else p.mapSession (Session.transitionState .closed))
      | some .handshake => (fail .protocolError "handshake packet in secure path", p)
      | none => (fail .protocolError "unknown secure packet kind", p)

/-- The close reason the error chain of `handle_packet` gives a failed packet, if any. -/
def chainReason : Side → Errc → Option CloseReason
  | .client _, .unsupportedVersion => some .unsupportedVersion
  | .client _, .authFailed | .server _, .authFailed => some .authenticationFailed
  | .client _, .stateError => some .protocolError
  | .server _, .stateError => some .stateViolation
  | .client _, .protocolError | .server _, .protocolError => some .protocolError
  | .client _, .badPacket | .server _, .badPacket => some .invalidPacket
  | .client _, .truncated | .server _, .truncated => some .invalidPacket
  | _, _ => none

/-- A packet of the session that is no handshake packet, with its error chain. -/
def receivePacket (now : UInt64) (packet : PacketView) (p : Party) : Party :=
  let (rc, p) := match p.side with
    | .client _ => p.handleEstablishedPacket C now packet
    | .server _ => p.handleSessionPacket C now packet
  match rc with
  | .ok () => p
  | .error e =>
    match chainReason p.side e.code with
    | none => p
    | some reason => p.violation C now reason

/-- One datagram of the peer, as `pump_receive` handles it once the session is set up. -/
def receive (now : UInt64) (datagram : Bytes) (p : Party) : Party :=
  match p.side, parsePacket datagram with
  | .client _, .error e =>
    if !p.net.sockOpen then p
    else p.failConnection
      (if e.code = .unsupportedVersion then .unsupportedVersion else .invalidPacket)
  | .server _, .error _ => p
  | .client _, .ok packet =>
    if !p.net.sockOpen ∨ packet.h.kind = PacketKind.handshake.code then p
    else p.receivePacket C now packet
  | .server _, .ok packet =>
    if packet.h.kind = PacketKind.handshake.code then p else p.receivePacket C now packet

/-- A closing client whose drain time is over. -/
def endDrain (p : Party) : Party :=
  { p with
    net := { p.net with pending := [], pendingBytes := 0, sockOpen := false }
    session := Session.transitionState .closed { p.session with
      keys := .cleared
      reliable := p.session.reliable.clear
      orderedReliable := p.session.orderedReliable.clear } }

/-- Silence on the wire: timeouts, keepalives and the end of the close drain. -/
def runHousekeeping (now : UInt64) (p : Party) : Result Unit × Party :=
  let p := p.mapSession fun s => { s with reassembler := s.reassembler.expireOld now }
  let s := p.session
  match p.side with
  | .client config =>
    if s.state = .handshaking then
      (.ok (), if s.startedMs ≠ 0 ∧ config.handshakeTimeoutMs < now - s.startedMs then
        p.failConnection .establishTimeout else p)
    else if s.state = .established ∧ s.lastRecvMs ≠ 0 ∧
        config.idleTimeoutMs < now - s.lastRecvMs then
      let (_, p) := p.queueClosePacket C now .idleTimeout true
      (.ok (), p.mapSession (Session.startClosing .idleTimeout))
    else if s.state = .established ∧
        (s.lastSendMs = 0 ∨ config.keepaliveIntervalMs ≤ now - s.lastSendMs) then
      p.queueKeepalive C
    else if s.state = .closing ∧ s.lastSendMs ≠ 0 ∧ config.closeDrainMs ≤ now - s.lastSendMs then
      (.ok (), p.endDrain)
    else (.ok (), p)
  | .server config =>
    if s.state = .handshaking ∧ config.handshakeTimeoutMs < now - s.startedMs then
      (.ok (), p.closeSession C now .establishTimeout)
    else if s.state = .established ∧ s.lastRecvMs ≠ 0 ∧
        config.idleTimeoutMs < now - s.lastRecvMs then
      (.ok (), p.closeSession C now .idleTimeout)
    else if s.state = .established ∧
        (s.lastSendMs = 0 ∨ config.keepaliveIntervalMs ≤ now - s.lastSendMs) then
      p.queueKeepalive C
    else if s.state = .closing ∧ s.lastSendMs ≠ 0 ∧ config.closeDrainMs ≤ now - s.lastSendMs then
      (.ok (), p.mapSession (Session.transitionState .closed))
    else (.ok (), p)

/-- `close` of a client, `close_peer` of a server session. -/
def close (now : UInt64) (reason : CloseReason) (p : Party) : Result Unit × Party :=
  match p.side with
  | .server _ => (.ok (), p.closeSession C now reason)
  | .client _ =>
    if p.session.state = .closed ∨ p.session.state = .idle then (.ok (), p)
    else
      match p.queueClosePacket C now reason p.session.closesEncrypted with
      | (.error e, p) => (.error e, p.failConnection reason)
      | (.ok (), p) => (.ok (), p.mapSession (Session.startClosing reason))

end Party

end SecureCnet
