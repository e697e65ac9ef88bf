import SecureCnet.Session.Queue

/-!
# Sending

The send path of a session, from the application call down to the packet queue,
and the retransmission pass. Failures keep the effects of the steps before them,
as in the source: a failed send may have used up numbers, and a fragmented send
that fails half way leaves its first fragments queued.
-/

namespace SecureCnet

variable (C : Crypto)

namespace Party

def sendReliableMessage (channel : Channel) (type : UInt8) (data : Bytes)
    (priority : SendPriority) (lifetimeMs now : UInt64) (p : Party) : Result Unit × Party :=
  if NetConfig.maxReliableMessageBytes < data.length then
    (fail .tooLarge "reliable payload exceeds inline channel budget", p)
  else
    match (p.session.reliableFor channel).enqueue type data priority lifetimeMs now with
    | (.error e, rs) =>
      let p := p.mapSession (Session.setReliable channel rs)
      -- Past the two limits of the queue the message has taken its id.
      (.error e, if e.code = .queueFull then p else p.log (.drew (.message channel)))
    | (.ok m, rs) =>
      let p := (p.mapSession (Session.setReliable channel rs)).log (.drew (.message channel))
      match p.queueMessagePacket C channel type m.encodedPayload priority with
      | (.error e, p) =>
        (.error e, p.mapSession fun s =>
          s.setReliable channel ((s.reliableFor channel).acknowledge m.messageId now).2)
      | (.ok (), p) =>
        (.ok (), p.mapSession fun s =>
          s.setReliable channel ((s.reliableFor channel).noteSent m.messageId now).2)

/-- The body of the fragment loop. -/
def sendPiece (options : SendOptions) (now : UInt64) (m : FragmentedMessage) (i : UInt16)
    (p : Party) : Result Unit × Party :=
  let fragmentLen := fragmentSizeForIndex m.originalLength i
  let offset := i.toNat * NetConfig.maxFragmentDataBytes
  let view : FragmentView :=
    ⟨m.messageId, m.deliverySequence, m.channel, m.type, i, m.fragmentCount, m.originalLength,
      (m.payload.drop offset).take fragmentLen.toNat⟩
  match writeFragmentPayload ⟨NetConfig.maxMessageBytes, []⟩ view with
  | .error e => (.error e, p)
  | .ok w =>
    if options.channel.isReliable then
      p.sendReliableMessage C options.channel ControlType.fragment.code w.out options.priority
        options.lifetimeMs now
    else p.queueInternalMessage C .control ControlType.fragment.code w.out options.priority

/-- The fragment loop; it stops at the first error. -/
def sendPieces (options : SendOptions) (now : UInt64) (m : FragmentedMessage) :
    List UInt16 → Party → Result Unit × Party
  | [], p => (.ok (), p)
  | i :: is, p =>
    match p.sendPiece C options now m i with
    | (.error e, p) => (.error e, p)
    | (.ok (), p) => sendPieces options now m is p

def pieceIndices (count : UInt16) : List UInt16 := (List.range count.toNat).map UInt16.ofNat

/-- The sequence number a fragmented message carries, drawn for the channels that have one. -/
def drawDeliverySequence (channel : Channel) (p : Party) : UInt64 × Party :=
  if channel = .reliableOrdered then
    (p.session.nextOrderedSequence, p.mapSession Session.drawOrdered)
  else if channel = .sequencedUnreliable then
    (p.session.nextSequencedSequence, p.mapSession Session.drawSequenced)
  else (0, p)

def sendFragmented (options : SendOptions) (type : UInt8) (payload : Bytes) (now : UInt64)
    (p : Party) : Result Unit × Party :=
  if !p.side.fragmentation.enabled then (fail .tooLarge "fragmentation disabled", p)
  else if !options.channel.isApplication then
    (fail .invalidArg "fragment channel must be an application channel", p)
  else if p.side.fragmentation.maxReassembledMessageBytes.toNat < payload.length then
    (fail .tooLarge "payload exceeds reassembly policy", p)
  else
    let count := fragmentCountForLength (UInt16.ofNat payload.length)
    if count = 0 ∨ p.side.fragmentation.maxFragmentsPerMessage < count then
      (fail .tooLarge "fragment count exceeds policy", p)
    else
      let logicalMessageId := p.session.nextFragmentMessageId
      let p := p.mapSession Session.drawFragmentId
      let (deliverySequence, p) := p.drawDeliverySequence options.channel
      let m : FragmentedMessage :=
        ⟨logicalMessageId, deliverySequence, options.channel, type, payload⟩
      p.sendPieces C options now m (pieceIndices count)

def notEstablishedMsg : Side → String
  | .client _ => "connection not established"
  | .server _ => "peer not established"

def send (options : SendOptions) (type : UInt8) (payload : Bytes) (now : UInt64) (p : Party) :
    Result Unit × Party :=
  if p.session.state ≠ .established then (fail .stateError (notEstablishedMsg p.side), p)
  else if !options.channel.isApplication then
    (fail .invalidArg "send channel must be an application channel", p)
  else if 0xFFFF < payload.length then (fail .tooLarge "message payload too large", p)
  else if options.channel.maxInlinePayloadSize < payload.length then
    p.sendFragmented C options type payload now
  else if options.channel = .reliable then
    p.sendReliableMessage C .reliable type payload options.priority options.lifetimeMs now
  else if options.channel = .reliableOrdered then
    let sequence := p.session.nextOrderedSequence
    let p := p.mapSession Session.drawOrdered
    match writeOrderedPayload ⟨NetConfig.maxReliableMessageBytes, []⟩ sequence payload with
    | .error e => (.error e, p)
    | .ok w => p.sendReliableMessage C .reliableOrdered type w.out options.priority
        options.lifetimeMs now
  else if options.channel = .sequencedUnreliable then
    let sequence := p.session.nextSequencedSequence
    let p := p.mapSession Session.drawSequenced
    match writeSequencedPayload ⟨NetConfig.maxMessageBytes, []⟩ sequence payload with
    | .error e => (.error e, p)
    | .ok w => p.queueMessagePacket C .sequencedUnreliable type w.out options.priority
  else p.queueMessagePacket C .unreliable type payload options.priority

def sendPayload (data : Bytes) (p : Party) : Result Unit × Party :=
  if p.session.state ≠ .established then (fail .stateError (notEstablishedMsg p.side), p)
  else if NetConfig.maxEncryptedPlaintextBytes < data.length then
    (fail .tooLarge "raw payload too large", p)
  else p.queueRawPayload C data .normal

/-- Send one pending message again. -/
def resendOne (channel : Channel) (m : PendingReliableMessage) (p : Party) : Result Unit × Party :=
  match p.queueMessagePacket C channel m.userType m.encodedPayload m.priority with
  | (.error e, p) =>
    (if e.code = .queueFull then fail .backpressure "reliable send backpressure" else .error e, p)
  | (.ok (), p) => (.ok (), p)

def resendChannel (channel : Channel) (now : UInt64) (p : Party) : Result Unit × Party :=
  let (rc, rs, p) := (p.session.reliableFor channel).resendDue now (resendOne C channel) p
  (rc, p.mapSession (Session.setReliable channel rs))

def expirePending (now : UInt64) (s : Session) : Session :=
  { s with
    reliable := (s.reliable.expireOld now).2
    orderedReliable := (s.orderedReliable.expireOld now).2 }

def lossEvents (s : Session) : UInt64 := s.reliable.lossEvents + s.orderedReliable.lossEvents

def isBackpressure : Result Unit → Bool
  | .error e => e.code = .backpressure
  | .ok () => false

/-- `pump_reliable` of a client, or its body for one session of a server. -/
def pumpReliable (now : UInt64) (p : Party) : Result Unit × Party :=
  if p.session.state ≠ .established then (.ok (), p)
  else
    let before := lossEvents p.session
    let p := p.mapSession (expirePending now)
    match p.resendChannel C .reliable now with
    | (rc, p) =>
      if rc ≠ .ok () ∧ !isBackpressure rc then (rc, p)
      else
        match p.resendChannel C .reliableOrdered now with
        | (rc, p) =>
          if rc ≠ .ok () ∧ !isBackpressure rc then (rc, p)
          else
            let after := lossEvents p.session
            if before < after then
              (.ok (), p.mapSession fun s =>
                { s with budget := s.budget.onLoss now (after - before) })
            else (.ok (), p)

end Party

end SecureCnet
