import SecureCnet.Delivery.Congestion
import SecureCnet.Delivery.Ordered
import SecureCnet.Delivery.Reassembler
import SecureCnet.Wire.Handshake
import SecureCnet.Wire.Packet

/-!
# Session state

`Client` and `Server::PeerSession` run the same session code over the same
fields. `Session` holds those fields, `Transport` the packet queue and socket they
share, and `Party` is one end of a session as the session code sees it: a client,
or one session of a server together with what it can reach of the server.

`trace` is the history of a session: numbers drawn, encryptions, acknowledgements
and the calls into the application. It is read by statements only, never by code.
-/

namespace SecureCnet

/-- The address part of an endpoint; `inet_ntop` prints different ones differently. -/
inductive Host
  | uninitialized
  | ipv4 (addr : Block 4)
  | ipv6 (addr : Block 16)
  deriving DecidableEq, Repr

inductive Endpoint
  | uninitialized
  | ipv4 (addr : Block 4) (port : UInt16)
  | ipv6 (addr : Block 16) (scopeId : UInt32) (port : UInt16)
  deriving DecidableEq, Repr

/-- The key of the per-host tables. -/
def Endpoint.hostKey : Endpoint → Host
  | .uninitialized => .uninitialized
  | .ipv4 addr _ => .ipv4 addr
  | .ipv6 addr _ _ => .ipv6 addr

/-- The counters numbers are drawn from. -/
inductive Counter
  | packet
  | message (channel : Channel)
  | ordered
  | sequenced
  | fragment
  deriving DecidableEq, Repr

/-- An acknowledgement of the peer, with what `ReliableSession::acknowledge` says to it. -/
structure AckReport where
  channel : Channel
  messageId : UInt64
  event : ReliableAckEvent
  deriving DecidableEq, Repr

inductive Event
  /-- The counter was read and incremented. -/
  | drew (k : Counter)
  /-- `crypto_aead_encrypt` was called. -/
  | encrypted (key : Block 32) (nonce : Block 24)
  /-- An acknowledgement for a received frame was queued. -/
  | ackQueued (channel : Channel) (messageId : UInt64)
  /-- The receive window took the id of a reliable frame as new. -/
  | accepted (channel : Channel) (messageId : UInt64)
  /-- `ReliableSession::acknowledge` was called for the peer. -/
  | reported (report : AckReport)
  /-- An acknowledgement removed a pending message. -/
  | acked (channel : Channel) (messageId : UInt64)
  /-- The user data of a reliable frame went to `deliver_application_message`. -/
  | passed (channel : Channel) (messageId : UInt64) (type : UInt8) (data : Bytes)
  /-- A reassembled message went to `deliver_application_message`. -/
  | reassembled (message : FragmentedMessage)
  /-- `emit_message` was called. -/
  | emitted (msg : MsgView)
  /-- A server called `_on_packet` with an authentic packet. -/
  | onPacket (packet : PacketView)
  | stateChanged (previous next : ConnectionState)
  deriving DecidableEq, Repr

structure Session where
  endpoint : Endpoint := .uninitialized
  connId : UInt64 := 0
  state : ConnectionState := .idle
  closeReason : CloseReason := .normal
  /-- `_handshake_started_ms` of a client, `created_ms` of a server session. -/
  startedMs : UInt64 := 0
  lastRecvMs : UInt64 := 0
  lastSendMs : UInt64 := 0
  sendSeq : UInt64 := 1
  budget : SendBudget := {}
  nextFragmentMessageId : UInt64 := 1
  nextOrderedSequence : UInt64 := 1
  nextSequencedSequence : UInt64 := 1
  ephemeral : KeyPair := .cleared
  keys : SessionKeys := .cleared
  packetWindow : ReplayWindow := {}
  reliable : ReliableSession := {}
  orderedReliable : ReliableSession := {}
  ordered : OrderedReceiveWindow := {}
  sequenced : SequencedReceiveWindow := {}
  reassembler : FragmentReassembler := {}
  trace : List Event := []
  deriving DecidableEq

namespace Session

def log (e : Event) (s : Session) : Session := { s with trace := s.trace ++ [e] }

/-- `seq++`, with the draw recorded. -/
def drawPacketNumber (s : Session) : Session :=
  { s.log (.drew .packet) with sendSeq := s.sendSeq + 1 }

def drawFragmentId (s : Session) : Session :=
  { s.log (.drew .fragment) with nextFragmentMessageId := s.nextFragmentMessageId + 1 }

def drawOrdered (s : Session) : Session :=
  { s.log (.drew .ordered) with nextOrderedSequence := s.nextOrderedSequence + 1 }

def drawSequenced (s : Session) : Session :=
  { s.log (.drew .sequenced) with nextSequencedSequence := s.nextSequencedSequence + 1 }

def transitionState (next : ConnectionState) (s : Session) : Session :=
  if s.state = next then s else { s.log (.stateChanged s.state next) with state := next }

def closesEncrypted (s : Session) : Bool := s.state = .established || s.state = .closing

/-- The reliable session of a channel. -/
def reliableFor (ch : Channel) (s : Session) : ReliableSession :=
  if ch = .reliableOrdered then s.orderedReliable else s.reliable

def setReliable (ch : Channel) (rs : ReliableSession) (s : Session) : Session :=
  if ch = .reliableOrdered then { s with orderedReliable := rs } else { s with reliable := rs }

def drawn (k : Counter) (s : Session) : ℕ := s.trace.count (.drew k)

section

variable (e : Event) (s : Session)

@[simp] theorem log_connId : (s.log e).connId = s.connId := rfl
@[simp] theorem log_state : (s.log e).state = s.state := rfl
@[simp] theorem log_endpoint : (s.log e).endpoint = s.endpoint := rfl
@[simp] theorem log_keys : (s.log e).keys = s.keys := rfl
@[simp] theorem log_sendSeq : (s.log e).sendSeq = s.sendSeq := rfl
@[simp] theorem log_ordered : (s.log e).ordered = s.ordered := rfl
@[simp] theorem log_sequenced : (s.log e).sequenced = s.sequenced := rfl
@[simp] theorem log_reassembler : (s.log e).reassembler = s.reassembler := rfl
@[simp] theorem log_nextFragmentMessageId : (s.log e).nextFragmentMessageId = s.nextFragmentMessageId := rfl
@[simp] theorem log_nextOrderedSequence : (s.log e).nextOrderedSequence = s.nextOrderedSequence := rfl
@[simp] theorem log_nextSequencedSequence : (s.log e).nextSequencedSequence = s.nextSequencedSequence := rfl
@[simp] theorem log_reliable : (s.log e).reliable = s.reliable := rfl
@[simp] theorem log_orderedReliable : (s.log e).orderedReliable = s.orderedReliable := rfl
@[simp] theorem log_trace : (s.log e).trace = s.trace ++ [e] := rfl

end

theorem setReliable_eq (ch : Channel) (rs : ReliableSession) (s : Session) :
    s.setReliable ch rs = { s with
      reliable := if ch = .reliableOrdered then s.reliable else rs
      orderedReliable := if ch = .reliableOrdered then rs else s.orderedReliable } := by
  unfold setReliable
  split_ifs <;> rfl

section

variable (ch : Channel) (rs : ReliableSession) (s : Session)

@[simp] theorem setReliable_connId : (s.setReliable ch rs).connId = s.connId := by
  rw [setReliable_eq]
@[simp] theorem setReliable_state : (s.setReliable ch rs).state = s.state := by
  rw [setReliable_eq]
@[simp] theorem setReliable_endpoint : (s.setReliable ch rs).endpoint = s.endpoint := by
  rw [setReliable_eq]
@[simp] theorem setReliable_keys : (s.setReliable ch rs).keys = s.keys := by
  rw [setReliable_eq]
@[simp] theorem setReliable_sendSeq : (s.setReliable ch rs).sendSeq = s.sendSeq := by
  rw [setReliable_eq]
@[simp] theorem setReliable_trace : (s.setReliable ch rs).trace = s.trace := by
  rw [setReliable_eq]
@[simp] theorem setReliable_ordered : (s.setReliable ch rs).ordered = s.ordered := by
  rw [setReliable_eq]
@[simp] theorem setReliable_sequenced : (s.setReliable ch rs).sequenced = s.sequenced := by
  rw [setReliable_eq]
@[simp] theorem setReliable_reassembler : (s.setReliable ch rs).reassembler = s.reassembler := by
  rw [setReliable_eq]
@[simp] theorem setReliable_nextFragmentMessageId :
    (s.setReliable ch rs).nextFragmentMessageId = s.nextFragmentMessageId := by
  rw [setReliable_eq]
@[simp] theorem setReliable_nextOrderedSequence :
    (s.setReliable ch rs).nextOrderedSequence = s.nextOrderedSequence := by
  rw [setReliable_eq]
@[simp] theorem setReliable_nextSequencedSequence :
    (s.setReliable ch rs).nextSequencedSequence = s.nextSequencedSequence := by
  rw [setReliable_eq]

end

theorem reliableFor_congr {s s' : Session} {ch : Channel} (h : s'.reliable = s.reliable)
    (h' : s'.orderedReliable = s.orderedReliable) : s'.reliableFor ch = s.reliableFor ch := by
  rw [reliableFor, reliableFor, h, h']

@[simp] theorem reliableFor_log (e : Event) (ch : Channel) (s : Session) :
    (s.log e).reliableFor ch = s.reliableFor ch :=
  reliableFor_congr rfl rfl

theorem reliableFor_setReliable (ch ch' : Channel) (rs : ReliableSession) (s : Session) :
    (s.setReliable ch rs).reliableFor ch' =
      if (ch' = .reliableOrdered ↔ ch = .reliableOrdered) then rs else s.reliableFor ch' := by
  unfold setReliable reliableFor
  by_cases h : ch = .reliableOrdered <;> by_cases h' : ch' = .reliableOrdered <;> simp [h, h']

end Session

structure PendingPacket where
  /-- The `to` of the source. -/
  dest : Endpoint
  ownerConnId : UInt64
  bytes : Bytes
  priority : SendPriority
  /-- How many packets joined the queue before it; read by statements only. -/
  arrival : ℕ := 0
  deriving DecidableEq, Repr

structure PreauthBudgetState where
  bytesReceived : UInt64 := 0
  bytesSent : UInt64 := 0
  lastSeenMs : UInt64 := 0
  deriving DecidableEq, Repr

/-- The packet queue and socket of a client or server. -/
structure Transport where
  sockOpen : Bool := false
  pending : List PendingPacket := []
  pendingBytes : UInt64 := 0
  /-- Numbers of the server's unencrypted packets. -/
  statelessSeq : UInt64 := 1
  preauth : AList fun _ : Host => PreauthBudgetState := ∅
  /-- How many packets have joined the queue; read by statements only. -/
  arrivals : ℕ := 0
  deriving DecidableEq

/-- Insert a packet before the first one of lower priority. -/
def Transport.push (pkt : PendingPacket) (net : Transport) : Transport :=
  { net with
    pending := net.pending.orderedInsert (fun a b => b.priority.rank < a.priority.rank)
      { pkt with arrival := net.arrivals }
    pendingBytes := net.pendingBytes + UInt64.ofNat pkt.bytes.length
    arrivals := net.arrivals + 1 }

/-- Which class runs the session, with its configuration. -/
inductive Side
  | client (config : ClientConfig)
  | server (config : ServerConfig)
  deriving DecidableEq, Repr

namespace Side

def fragmentation : Side → FragmentationConfig
  | client config => config.fragmentation
  | server config => config.fragmentation

def maxPendingPackets : Side → UInt32
  | client config => config.maxPendingPackets
  | server config => config.maxPendingPackets

end Side

structure Party where
  side : Side
  session : Session
  net : Transport := {}
  /-- Reassembly memory held by the other sessions of the server. -/
  otherMemory : UInt64 := 0
  deriving DecidableEq

namespace Party

def mapSession (f : Session → Session) (p : Party) : Party := { p with session := f p.session }

def log (e : Event) (p : Party) : Party := p.mapSession (Session.log e)

@[simp] theorem mapSession_side (f : Session → Session) (p : Party) :
    (p.mapSession f).side = p.side := rfl
@[simp] theorem mapSession_session (f : Session → Session) (p : Party) :
    (p.mapSession f).session = f p.session := rfl
@[simp] theorem mapSession_net (f : Session → Session) (p : Party) :
    (p.mapSession f).net = p.net := rfl
end Party

end SecureCnet
