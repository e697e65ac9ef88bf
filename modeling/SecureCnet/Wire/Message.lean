import SecureCnet.Wire.ByteBuf

/-!
# Message frames and delivery envelopes

A frame is `[channel][type][length][bytes]`. Reliable, ordered and sequenced
frames carry a 64-bit number in front of the user bytes; the three envelopes
differ only in their limit and in the texts of their errors. Every encoder here
has a plain `encode` function, and every reader accepts exactly the encodings.
-/

namespace SecureCnet

open ByteReader

inductive Channel
  | unreliable | reliable | reliableOrdered | sequencedUnreliable | control
  deriving DecidableEq, Repr

namespace Channel

def code : Channel → UInt8
  | unreliable => 0
  | reliable => 1
  | reliableOrdered => 2
  | sequencedUnreliable => 3
  | control => 4

/-- The checked cast of the readers: bytes above `Control` are no channel. -/
def ofCode (b : UInt8) : Option Channel :=
  if b = 0 then some unreliable
  else if b = 1 then some reliable
  else if b = 2 then some reliableOrdered
  else if b = 3 then some sequencedUnreliable
  else if b = 4 then some control
  else none

@[simp] theorem ofCode_code (ch : Channel) : ofCode ch.code = some ch := by
  cases ch <;> rfl

theorem ofCode_eq_some {b : UInt8} {ch : Channel} : ofCode b = some ch ↔ b = ch.code := by
  constructor
  · intro h
    unfold ofCode at h
    split_ifs at h with h0 h1 h2 h3 h4 <;> cases h <;> assumption
  · rintro rfl
    exact ofCode_code ch

theorem code_inj {a b : Channel} (h : a.code = b.code) : a = b := by
  have := congrArg ofCode h
  simpa using this

def isReliable : Channel → Bool
  | reliable | reliableOrdered => true
  | _ => false

def isApplication (ch : Channel) : Bool := ch ≠ control

def maxInlinePayloadSize : Channel → ℕ
  | reliable => NetConfig.maxReliableMessageBytes
  | reliableOrdered => NetConfig.maxOrderedMessageBytes
  | sequencedUnreliable => NetConfig.maxSequencedMessageBytes
  | unreliable | control => NetConfig.maxMessageBytes

end Channel

structure SendOptions where
  channel : Channel := .unreliable
  priority : SendPriority := .normal
  lifetimeMs : UInt64 := 0
  deriving DecidableEq, Repr

structure MsgView where
  channel : Channel
  type : UInt8
  data : Bytes
  deriving DecidableEq, Repr

namespace MsgView

def encode (msg : MsgView) : Bytes :=
  msg.channel.code :: msg.type :: (be16 (UInt16.ofNat msg.data.length) ++ msg.data)

@[simp] theorem length_encode (msg : MsgView) : msg.encode.length = 4 + msg.data.length := by
  simp [encode]
  omega

end MsgView

def writeMessage (w : ByteWriter) (ch : Channel) (type : UInt8) (data : Bytes) :
    Result ByteWriter :=
  if NetConfig.maxMessageBytes < data.length then fail .invalidArg "message payload too large"
  else do
    let w ← w.writeU8 ch.code
    let w ← w.writeU8 type
    let w ← w.writeU16 (UInt16.ofNat data.length)
    w.writeBytes data

def readMessage (r : Bytes) : Result (MsgView × Bytes) :=
  if r.length = 0 then fail .endOfStream "no more messages"
  else if r.length < NetConfig.messageHeaderBytes then fail .badPacket "truncated message header"
  else do
    let (ch, r) ← readU8 r
    let (type, r) ← readU8 r
    let (len, r) ← readU16 r
    match Channel.ofCode ch with
    | none => fail .badPacket "invalid message channel"
    | some channel =>
      if r.length < len.toNat then fail .badPacket "message len exceeds payload"
      else do
        let (data, r) ← readBytes len.toNat r
        return (⟨channel, type, data⟩, r)

theorem writeMessage_eq (w : ByteWriter) (ch : Channel) (type : UInt8) (data : Bytes) :
    writeMessage w ch type data =
      if NetConfig.maxMessageBytes < data.length then fail .invalidArg "message payload too large"
      else w.writeBytes (MsgView.encode ⟨ch, type, data⟩) := by
  unfold writeMessage ByteWriter.writeU8 ByteWriter.writeU16
  rw [ByteWriter.writeBytes_bind_bind, ByteWriter.writeBytes_bind_bind, ByteWriter.writeBytes_bind]
  simp [MsgView.encode]

theorem readMessage_nil : readMessage [] = fail .endOfStream "no more messages" := rfl

theorem readMessage_encode {msg : MsgView} (h : msg.data.length < 2 ^ 16) (rest : Bytes) :
    readMessage (msg.encode ++ rest) = .ok (msg, rest) := by
  have hlen : (UInt16.ofNat msg.data.length).toNat = msg.data.length := by
    rw [UInt16.toNat_ofNat', Nat.mod_eq_of_lt h]
  unfold readMessage
  rw [if_neg (by simp), if_neg (by simp; omega)]
  simp only [MsgView.encode, List.cons_append, List.append_assoc, readU8_cons, readU16_append,
    Result.ok_bind, Channel.ofCode_code, hlen, List.length_append]
  rw [if_neg (by omega), readBytes_append rfl]
  rfl

/-- What `readMessage` accepts is the encoding of what it returns. -/
theorem readMessage_eq_ok {r rest : Bytes} {msg : MsgView} :
    readMessage r = .ok (msg, rest) ↔ r = msg.encode ++ rest ∧ msg.data.length < 2 ^ 16 := by
  constructor
  · intro h
    unfold readMessage at h
    rw [Result.guard_eq_ok, Result.guard_eq_ok, Result.bind_eq_ok] at h
    obtain ⟨-, -, ⟨ch, r₁⟩, h₁, h⟩ := h
    rw [Result.bind_eq_ok] at h
    obtain ⟨⟨type, r₂⟩, h₂, h⟩ := h
    rw [Result.bind_eq_ok] at h
    obtain ⟨⟨len, r₃⟩, h₃, h⟩ := h
    obtain rfl := readU8_eq_ok.mp h₁
    obtain rfl := readU8_eq_ok.mp h₂
    obtain rfl := readU16_eq_ok.mp h₃
    cases hch : Channel.ofCode ch with
    | none => simp [hch] at h
    | some channel =>
      simp only [hch] at h
      rw [Result.guard_eq_ok, Result.bind_eq_ok] at h
      obtain ⟨-, ⟨data, r₄⟩, h₄, h⟩ := h
      obtain ⟨rfl, hlen⟩ := readBytes_eq_ok.mp h₄
      simp only [Result.pure_eq, Except.ok.injEq, Prod.mk.injEq] at h
      obtain ⟨rfl, rfl⟩ := h
      have hch' := Channel.ofCode_eq_some.mp hch
      refine ⟨?_, hlen ▸ len.toNat_lt⟩
      simp [MsgView.encode, hlen, hch']
  · rintro ⟨rfl, h⟩
    exact readMessage_encode h rest

/-- The common writer of the three delivery envelopes. -/
def writeEnvelope (zeroMsg largeMsg : String) (maxLen : ℕ) (w : ByteWriter) (number : UInt64)
    (data : Bytes) : Result ByteWriter :=
  if number = 0 then fail .invalidArg zeroMsg
  else if maxLen < data.length then fail .invalidArg largeMsg
  else do
    let w ← w.writeU64 number
    w.writeBytes data

/-- The common reader of the three delivery envelopes; it consumes its whole input. -/
def readEnvelope (shortMsg zeroMsg largeMsg : String) (r : Bytes) : Result (UInt64 × Bytes) :=
  if r.length < 8 then fail .badPacket shortMsg
  else do
    let (number, r) ← readU64 r
    if number = 0 then fail .badPacket zeroMsg
    else if 0xFFFF < r.length then fail .badPacket largeMsg
    else return (number, r)

def writeReliablePayload : ByteWriter → UInt64 → Bytes → Result ByteWriter :=
  writeEnvelope "reliable message id must be non-zero" "reliable message too large"
    NetConfig.maxReliableMessageBytes

def readReliablePayload : Bytes → Result (UInt64 × Bytes) :=
  readEnvelope "reliable payload truncated" "reliable message id is invalid"
    "reliable payload too large"

def writeOrderedPayload : ByteWriter → UInt64 → Bytes → Result ByteWriter :=
  writeEnvelope "ordered sequence must be non-zero" "ordered message too large"
    NetConfig.maxOrderedMessageBytes

def readOrderedPayload : Bytes → Result (UInt64 × Bytes) :=
  readEnvelope "ordered payload truncated" "ordered payload has invalid sequence"
    "ordered payload too large"

def writeSequencedPayload : ByteWriter → UInt64 → Bytes → Result ByteWriter :=
  writeEnvelope "sequenced delivery sequence must be non-zero" "sequenced message too large"
    NetConfig.maxSequencedMessageBytes

def readSequencedPayload : Bytes → Result (UInt64 × Bytes) :=
  readEnvelope "sequenced payload truncated" "sequenced payload has invalid sequence"
    "sequenced payload too large"

theorem writeEnvelope_eq (zeroMsg largeMsg : String) (maxLen : ℕ) (w : ByteWriter)
    (number : UInt64) (data : Bytes) :
    writeEnvelope zeroMsg largeMsg maxLen w number data =
      if number = 0 then fail .invalidArg zeroMsg
      else if maxLen < data.length then fail .invalidArg largeMsg
      else w.writeBytes (be64 number ++ data) := by
  rw [writeEnvelope, ← ByteWriter.writeBytes_bind]
  rfl

/-- An envelope reader accepts exactly a non-zero number followed by its data. -/
theorem readEnvelope_eq_ok {shortMsg zeroMsg largeMsg : String} {r data : Bytes}
    {number : UInt64} :
    readEnvelope shortMsg zeroMsg largeMsg r = .ok (number, data) ↔
      r = be64 number ++ data ∧ number ≠ 0 ∧ data.length ≤ 0xFFFF := by
  unfold readEnvelope
  rw [Result.guard_eq_ok, Result.bind_eq_ok]
  constructor
  · rintro ⟨-, ⟨n, r'⟩, hr, h⟩
    obtain rfl := readU64_eq_ok.mp hr
    simp only [Result.guard_eq_ok, Result.pure_eq, Except.ok.injEq, Prod.mk.injEq, not_lt] at h
    obtain ⟨hn, hlen, rfl, rfl⟩ := h
    exact ⟨rfl, hn, hlen⟩
  · rintro ⟨rfl, hn, hlen⟩
    refine ⟨by simp, (number, data), readU64_append number data, ?_⟩
    simp [hn, hlen]

inductive ControlType
  | reliableAck | fragment
  deriving DecidableEq, Repr

def ControlType.code : ControlType → UInt8
  | .reliableAck => 1
  | .fragment => 2

def encodeAck (channel : Channel) (messageId : UInt64) : Bytes :=
  channel.code :: be64 messageId

@[simp] theorem length_encodeAck (channel : Channel) (messageId : UInt64) :
    (encodeAck channel messageId).length = 9 := by
  simp [encodeAck]

def writeReliableAck (w : ByteWriter) (channel : Channel) (messageId : UInt64) :
    Result ByteWriter :=
  if !channel.isReliable then fail .invalidArg "ack channel must be reliable"
  else if messageId = 0 then fail .invalidArg "ack message id must be non-zero"
  else do
    let w ← w.writeU8 channel.code
    w.writeU64 messageId

def readReliableAck (r : Bytes) : Result (Channel × UInt64) := do
  let (rawChannel, r) ← readU8 r
  if rawChannel ≠ Channel.reliable.code ∧ rawChannel ≠ Channel.reliableOrdered.code then
    fail .badPacket "ack channel is invalid"
  else do
    let channel := if rawChannel = Channel.reliable.code then Channel.reliable
      else .reliableOrdered
    let (messageId, r) ← readU64 r
    if messageId = 0 then fail .badPacket "ack message id is invalid"
    else if r.length ≠ 0 then fail .badPacket "extra bytes in reliable ack"
    else return (channel, messageId)

theorem writeReliableAck_eq (w : ByteWriter) (channel : Channel) (messageId : UInt64) :
    writeReliableAck w channel messageId =
      if !channel.isReliable then fail .invalidArg "ack channel must be reliable"
      else if messageId = 0 then fail .invalidArg "ack message id must be non-zero"
      else w.writeBytes (encodeAck channel messageId) := by
  unfold writeReliableAck ByteWriter.writeU8 ByteWriter.writeU64
  rw [ByteWriter.writeBytes_bind]
  rfl

theorem readReliableAck_eq_ok {r : Bytes} {channel : Channel} {messageId : UInt64} :
    readReliableAck r = .ok (channel, messageId) ↔
      r = encodeAck channel messageId ∧ channel.isReliable = true ∧ messageId ≠ 0 := by
  unfold readReliableAck
  rw [Result.bind_eq_ok]
  constructor
  · rintro ⟨⟨raw, r₁⟩, h₁, h⟩
    obtain rfl := readU8_eq_ok.mp h₁
    rw [Result.guard_eq_ok, Result.bind_eq_ok] at h
    obtain ⟨hraw, ⟨id, r₂⟩, h₂, h⟩ := h
    obtain rfl := readU64_eq_ok.mp h₂
    simp only [Result.guard_eq_ok, Result.pure_eq, Except.ok.injEq, Prod.mk.injEq, ne_eq,
      not_not, List.length_eq_zero_iff] at h
    obtain ⟨hid, rfl, rfl, rfl⟩ := h
    by_cases h1 : raw = Channel.reliable.code
    · subst h1
      simp [encodeAck, hid, Channel.isReliable]
    · have h2 : raw = Channel.reliableOrdered.code := by tauto
      subst h2
      simp [encodeAck, hid, Channel.isReliable, h1]
  · rintro ⟨rfl, hch, hid⟩
    refine ⟨_, readU8_cons _ _, ?_⟩
    have hread := readU64_append messageId []
    rw [List.append_nil] at hread
    cases channel <;> simp_all [Channel.isReliable, Channel.code]

end SecureCnet
