import SecureCnet.Session.State

/-!
# Queueing packets

Both classes have a `queue_packet`: they differ in where the packet number comes
from and in their checks, and share what follows (`sealAndEnqueue`). The client
takes a number after the size checks; the server's callers take one before the
call, so there every call consumes a number. Unencrypted server packets use the
stateless counter and the anti-amplification budget of their host.
-/

namespace SecureCnet

variable (C : Crypto)

def enqueuePendingPacket (maxPendingPackets : UInt32) (pkt : PendingPacket) (net : Transport) :
    Result Unit × Transport :=
  if maxPendingPackets.toNat ≤ net.pending.length then
    (fail .queueFull "pending packet queue full", net)
  else (.ok (), net.push pkt)

/-- The datagram of one packet: header, and the payload encrypted under `key` if asked. -/
def buildPacket (kind : PacketKind) (encrypted : Bool) (payload : Bytes) (connId seq : UInt64)
    (key : Block 32) : Result Bytes :=
  let header : PacketHeader :=
    { kind := kind.code, flags := if encrypted then packetFlagEncrypted else 0, connId, seq }
  if encrypted then do
    let header := { header with
      payloadLen := UInt32.ofNat (payload.length + NetConfig.aeadTagBytes) }
    let aad ← writePacketHeader ⟨NetConfig.packetHeaderBytes, []⟩ header
    let sealedPayload ← cryptoAeadEncrypt C key (cryptoMakePacketNonce connId seq) aad.out payload
      NetConfig.maxPayloadBytes
    packPacket header sealedPayload NetConfig.maxPacketBytes
  else
    packPacket { header with payloadLen := UInt32.ofNat payload.length } payload
      NetConfig.maxPacketBytes

/-- The common end of both `queue_packet` functions. -/
def sealAndEnqueue (maxPendingPackets : UInt32) (dest : Endpoint) (ownerConnId : UInt64)
    (kind : PacketKind) (encrypted : Bool) (payload : Bytes) (connId seq : UInt64)
    (key : Block 32) (priority : SendPriority) (net : Transport) : Result Unit × Transport :=
  match buildPacket C kind encrypted payload connId seq key with
  | .error e => (.error e, net)
  | .ok bytes => enqueuePendingPacket maxPendingPackets { dest, ownerConnId, bytes, priority } net

namespace Transport

def preauthStateFor (host : Host) (net : Transport) : PreauthBudgetState :=
  (net.preauth.lookup host).getD {}

def canAmplifyTo (abuse : AbuseConfig) (dest : Endpoint) (bytesToSend now : UInt64)
    (net : Transport) : Bool × Transport :=
  let state := { net.preauthStateFor dest.hostKey with lastSeenMs := now }
  let allowance := state.bytesReceived * abuse.antiAmplificationFactor.toUInt64 +
    abuse.antiAmplificationSlackBytes.toUInt64
  (state.bytesSent + bytesToSend ≤ allowance,
    { net with preauth := net.preauth.insert dest.hostKey state })

/-- A server packet without encryption, dropped silently when it would amplify. -/
def queuePlainPacket (config : ServerConfig) (now : UInt64) (dest : Endpoint) (kind : PacketKind)
    (payload : Bytes) (connId seq : UInt64) (priority : SendPriority) (ownerConnId : UInt64)
    (net : Transport) : Result Unit × Transport :=
  if NetConfig.maxPayloadBytes < payload.length then (fail .invalidArg "payload too large", net)
  else
    let estimated := UInt64.ofNat (NetConfig.packetHeaderBytes + payload.length)
    let (allowed, net) := net.canAmplifyTo config.abuse dest estimated now
    if !allowed then (.ok (), net)
    else sealAndEnqueue C config.maxPendingPackets dest ownerConnId kind false payload connId seq
      (Block.zero 32) priority net

end Transport

namespace Party

/-- `Client::queue_packet`. -/
def queuePacketClient (config : ClientConfig) (kind : PacketKind) (encrypted : Bool)
    (payload : Bytes) (priority : SendPriority) (p : Party) : Result Unit × Party :=
  if encrypted && NetConfig.maxEncryptedPlaintextBytes < payload.length then
    (fail .invalidArg "encrypted payload too large", p)
  else if !encrypted && NetConfig.maxPayloadBytes < payload.length then
    (fail .invalidArg "payload too large", p)
  else
    let s := p.session
    let seq := s.sendSeq
    let p := p.mapSession Session.drawPacketNumber
    if encrypted && (s.keys.empty || s.connId = 0) then
      (fail .stateError "session keys not ready", p)
    else
      let p := if encrypted then
          p.log (.encrypted s.keys.tx (cryptoMakePacketNonce s.connId seq)) else p
      let (rc, net) := sealAndEnqueue C config.maxPendingPackets s.endpoint 0 kind encrypted
        payload s.connId seq s.keys.tx priority p.net
      (rc, { p with net })

/-- `Server::queue_packet` for an encrypted packet of a session. -/
def queuePacketServer (config : ServerConfig) (kind : PacketKind) (payload : Bytes)
    (priority : SendPriority) (p : Party) : Result Unit × Party :=
  let s := p.session
  let seq := s.sendSeq
  let p := p.mapSession Session.drawPacketNumber
  if NetConfig.maxEncryptedPlaintextBytes < payload.length then
    (fail .invalidArg "encrypted payload too large", p)
  else if s.keys.empty then (fail .stateError "missing session keys", p)
  else
    let p := p.log (.encrypted s.keys.tx (cryptoMakePacketNonce s.connId seq))
    let (rc, net) := sealAndEnqueue C config.maxPendingPackets s.endpoint s.connId kind true payload
      s.connId seq s.keys.tx priority p.net
    (rc, { p with net })

/-- An unencrypted packet on behalf of a server session. -/
def queuePlainServer (config : ServerConfig) (now : UInt64) (kind : PacketKind) (payload : Bytes)
    (priority : SendPriority) (p : Party) : Result Unit × Party :=
  let seq := p.net.statelessSeq
  let net := { p.net with statelessSeq := seq + 1 }
  let (rc, net) := net.queuePlainPacket C config now p.session.endpoint kind payload
    p.session.connId seq priority p.session.connId
  (rc, { p with net })

/-- Queue an encrypted packet of the session. -/
def queueSecure (kind : PacketKind) (payload : Bytes) (priority : SendPriority) (p : Party) :
    Result Unit × Party :=
  match p.side with
  | .client config => p.queuePacketClient C config kind true payload priority
  | .server config => p.queuePacketServer C config kind payload priority

def queueInternalMessage (channel : Channel) (type : UInt8) (data : Bytes)
    (priority : SendPriority) (p : Party) : Result Unit × Party :=
  match writeMessage ⟨NetConfig.maxEncryptedPlaintextBytes, []⟩ channel type data with
  | .error e => (.error e, p)
  | .ok w => p.queueSecure C .message w.out priority

def queueMessagePacket (channel : Channel) (type : UInt8) (data : Bytes)
    (priority : SendPriority) (p : Party) : Result Unit × Party :=
  if channel = .control then (fail .stateError "control channel is reserved", p)
  else p.queueInternalMessage C channel type data priority

def queueRawPayload (data : Bytes) (priority : SendPriority) (p : Party) : Result Unit × Party :=
  p.queueSecure C .raw data priority

def queueControlAck (channel : Channel) (messageId : UInt64) (p : Party) : Result Unit × Party :=
  match writeReliableAck ⟨16, []⟩ channel messageId with
  | .error e => (.error e, p)
  | .ok w =>
    match p.queueInternalMessage C .control ControlType.reliableAck.code w.out .high with
    | (.error e, p) => (.error e, p)
    | (.ok (), p) => (.ok (), p.log (.ackQueued channel messageId))

def queueKeepalive (p : Party) : Result Unit × Party := p.queueSecure C .keepalive [] .high

/-- The close frame of a session, encrypted or, from a server, in the clear. -/
def queueClosePacket (now : UInt64) (reason : CloseReason) (encrypted : Bool) (p : Party) :
    Result Unit × Party :=
  match writeCloseFrame ⟨8, []⟩ reason with
  | .error e => (.error e, p)
  | .ok w =>
    match p.side with
    | .client config => p.queuePacketClient C config .close encrypted w.out .high
    | .server config =>
      if encrypted then p.queuePacketServer C config .close w.out .high
      else p.queuePlainServer C config now .close w.out .high

/-- `Client::fail_connection`. -/
def failConnection (reason : CloseReason) (p : Party) : Party :=
  { p with
    net := { p.net with pending := [], pendingBytes := 0, sockOpen := false }
    session := Session.transitionState .closed { p.session with
      closeReason := reason
      reliable := p.session.reliable.clear
      orderedReliable := p.session.orderedReliable.clear
      ordered := p.session.ordered.clear
      sequenced := {}
      reassembler := p.session.reassembler.clear
      keys := .cleared
      ephemeral := .cleared
      packetWindow := {} } }

/-- `Server::close_session` with `send_close` set, as every caller has it. -/
def closeSession (now : UInt64) (reason : CloseReason) (p : Party) : Party :=
  let p := p.mapSession fun s => { s with closeReason := reason }
  if p.session.state ≠ .closed then
    let (_, p) := p.queueClosePacket C now reason p.session.closesEncrypted
    p.mapSession (Session.transitionState .closing)
  else p

/-- What a protocol violation of the peer leads to. -/
def violation (now : UInt64) (reason : CloseReason) (p : Party) : Party :=
  match p.side with
  | .client _ => p.failConnection reason
  | .server _ => p.closeSession C now reason

end Party

namespace Party

/-- The number is drawn and the cipher is called with it. -/
def sealing (p : Party) : Party :=
  (p.mapSession Session.drawPacketNumber).log
    (.encrypted p.session.keys.tx (cryptoMakePacketNonce p.session.connId p.session.sendSeq))

/-- The owner recorded with the packets of a session. -/
def ownerConnId (p : Party) : UInt64 :=
  match p.side with
  | .client _ => 0
  | .server _ => p.session.connId

/-- Everything queueing one encrypted packet can do to a session. -/
inductive Queued (p : Party) (kind : PacketKind) (payload : Bytes) (priority : SendPriority) :
    Result Unit → Party → Prop
  /-- Refused before a number was drawn. -/
  | refused (e : Failure) : Queued p kind payload priority (.error e) p
  /-- A number was drawn, the cipher was not called. -/
  | burned (e : Failure) :
      Queued p kind payload priority (.error e) (p.mapSession Session.drawPacketNumber)
  /-- The packet was encrypted and then not queued. -/
  | dropped (e : Failure) : Queued p kind payload priority (.error e) p.sealing
  | queued (bytes : Bytes)
      (hbuild : buildPacket C kind true payload p.session.connId p.session.sendSeq
        p.session.keys.tx = .ok bytes)
      (hkeys : p.session.keys.empty = false)
      (hroom : p.net.pending.length < p.side.maxPendingPackets.toNat) :
      Queued p kind payload priority (.ok ())
        { p.sealing with
          net := p.net.push ⟨p.session.endpoint, p.ownerConnId, bytes, priority, 0⟩ }

theorem sealAndEnqueue_queued (kind : PacketKind) (payload : Bytes) (priority : SendPriority)
    (p : Party) (hkeys : p.session.keys.empty = false) :
    let r := sealAndEnqueue C p.side.maxPendingPackets p.session.endpoint p.ownerConnId kind true
      payload p.session.connId p.session.sendSeq p.session.keys.tx priority p.net
    Queued C p kind payload priority r.1 { p.sealing with net := r.2 } := by
  unfold sealAndEnqueue
  cases hb : buildPacket C kind true payload p.session.connId p.session.sendSeq
      p.session.keys.tx with
  | error e => exact .dropped e
  | ok bytes =>
    dsimp only
    unfold enqueuePendingPacket
    split_ifs with hfull
    · exact .dropped _
    · exact .queued bytes hb hkeys (not_le.mp hfull)

/-- Both classes queue an encrypted packet in one of the ways above. -/
theorem queueSecure_queued (kind : PacketKind) (payload : Bytes) (priority : SendPriority)
    (p : Party) :
    Queued C p kind payload priority (p.queueSecure C kind payload priority).1
      (p.queueSecure C kind payload priority).2 := by
  have hseal := sealAndEnqueue_queued C kind payload priority p
  unfold ownerConnId Side.maxPendingPackets at hseal
  unfold queueSecure
  cases hs : p.side with
  | client config =>
    rw [hs] at hseal
    dsimp only
    unfold queuePacketClient
    by_cases hlen : NetConfig.maxEncryptedPlaintextBytes < payload.length
    · simp only [hlen, decide_true, Bool.and_self, if_true]
      exact .refused _
    by_cases hkeys : (p.session.keys.empty || decide (p.session.connId = 0)) = true
    · simp only [hlen, hkeys, decide_false, Bool.and_false, Bool.false_eq_true, if_false,
        Bool.not_true, Bool.false_and, Bool.and_self, if_true]
      exact .burned _
    · have hempty : p.session.keys.empty = false := by
        simp only [Bool.or_eq_true, not_or, Bool.not_eq_true] at hkeys
        exact hkeys.1
      simp only [hlen, decide_false, Bool.and_false, Bool.false_eq_true, if_false,
        Bool.not_true, Bool.false_and, hkeys, if_true]
      exact hseal hempty
  | server config =>
    rw [hs] at hseal
    dsimp only
    unfold queuePacketServer
    by_cases hlen : NetConfig.maxEncryptedPlaintextBytes < payload.length
    · simp only [hlen, if_true]
      exact .burned _
    simp only [hlen, if_false]
    cases hkeys : p.session.keys.empty with
    | true =>
      simp only [if_true]
      exact .burned _
    | false =>
      simp only [Bool.false_eq_true, if_false]
      exact hseal hkeys

theorem queueInternalMessage_queued (channel : Channel) (type : UInt8) (data : Bytes)
    (priority : SendPriority) (p : Party) :
    Queued C p .message (MsgView.encode ⟨channel, type, data⟩) priority
      (p.queueInternalMessage C channel type data priority).1
      (p.queueInternalMessage C channel type data priority).2 := by
  unfold queueInternalMessage
  rw [writeMessage_eq]
  split_ifs with hlen
  · exact .refused _
  · rw [ByteWriter.writeBytes_fresh]
    split_ifs
    · exact queueSecure_queued C .message _ priority p
    · exact .refused _

theorem queueMessagePacket_queued (channel : Channel) (type : UInt8) (data : Bytes)
    (priority : SendPriority) (p : Party) :
    Queued C p .message (MsgView.encode ⟨channel, type, data⟩) priority
      (p.queueMessagePacket C channel type data priority).1
      (p.queueMessagePacket C channel type data priority).2 := by
  unfold queueMessagePacket
  split_ifs
  · exact .refused _
  · exact queueInternalMessage_queued C channel type data priority p

/-- Queueing an acknowledgement either queues nothing, or the packet and its record. -/
theorem queueControlAck_queued (channel : Channel) (messageId : UInt64) (p : Party) :
    ∃ rc p', Queued C p .message
        (MsgView.encode ⟨.control, ControlType.reliableAck.code, encodeAck channel messageId⟩)
        .high rc p' ∧
      ((∃ e, rc = .error e ∧ p.queueControlAck C channel messageId = (.error e, p')) ∨
        (rc = .ok () ∧ p.queueControlAck C channel messageId =
          (.ok (), p'.log (.ackQueued channel messageId)))) := by
  unfold queueControlAck
  rw [writeReliableAck_eq]
  split_ifs with hch hid
  · exact ⟨_, _, .refused _, Or.inl ⟨_, rfl, rfl⟩⟩
  · exact ⟨_, _, .refused _, Or.inl ⟨_, rfl, rfl⟩⟩
  · rw [ByteWriter.writeBytes_fresh, if_pos (by simp)]
    have hq := queueInternalMessage_queued C .control ControlType.reliableAck.code
      (encodeAck channel messageId) .high p
    refine ⟨_, _, hq, ?_⟩
    dsimp only
    cases hr : p.queueInternalMessage C .control ControlType.reliableAck.code
        (encodeAck channel messageId) .high with
    | mk rc p' =>
      cases rc with
      | error e => exact Or.inl ⟨e, rfl, rfl⟩
      | ok u => exact Or.inr ⟨rfl, rfl⟩

end Party

end SecureCnet
