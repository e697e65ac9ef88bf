import SecureCnet.Library.Chunks
import SecureCnet.Wire.Message

/-!
# Fragment payloads

A large message is cut into pieces of `maxFragmentDataBytes`; the last piece is
shorter. The count and the length of every piece are functions of the original
length, and both the writer and the reader insist on them.
-/

namespace SecureCnet

open ByteReader

structure FragmentView where
  messageId : UInt64
  deliverySequence : UInt64
  channel : Channel
  type : UInt8
  fragmentIndex : UInt16
  fragmentCount : UInt16
  originalLength : UInt16
  data : Bytes
  deriving DecidableEq, Repr

structure FragmentedMessage where
  messageId : UInt64
  deliverySequence : UInt64
  channel : Channel
  type : UInt8
  payload : Bytes
  deriving DecidableEq, Repr

def fragmentCountForLength (originalLength : UInt16) : UInt16 :=
  if originalLength = 0 then 0
  else UInt16.ofNat ((originalLength.toNat + NetConfig.maxFragmentDataBytes - 1) /
    NetConfig.maxFragmentDataBytes)

def fragmentSizeForIndex (originalLength fragmentIndex : UInt16) : UInt16 :=
  let count := fragmentCountForLength originalLength
  if count = 0 ∨ count ≤ fragmentIndex then 0
  else
    let offset := UInt16.ofNat (fragmentIndex.toNat * NetConfig.maxFragmentDataBytes)
    let remaining := originalLength - offset
    min remaining (UInt16.ofNat NetConfig.maxFragmentDataBytes)

theorem fragmentCountForLength_toNat (len : UInt16) :
    (fragmentCountForLength len).toNat = (len.toNat + 1211) / 1212 := by
  have hlen := len.toNat_lt
  unfold fragmentCountForLength
  split_ifs with h
  · simp [h]
  · rw [UInt16.toNat_ofNat', Nat.mod_eq_of_lt]
    · rfl
    · simp only [NetConfig.maxFragmentDataBytes_eq]
      omega

variable {len idx : UInt16}

theorem fragmentCountForLength_pos (h : len ≠ 0) : 0 < (fragmentCountForLength len).toNat := by
  have hne : len.toNat ≠ 0 := fun h0 => h (UInt16.toNat_inj.mp h0)
  rw [fragmentCountForLength_toNat]
  omega

/-- Inside the count, a piece is full except for the last one. -/
theorem fragmentSizeForIndex_toNat (h : idx.toNat < (fragmentCountForLength len).toNat) :
    (fragmentSizeForIndex len idx).toNat = min (len.toNat - idx.toNat * 1212) 1212 := by
  have hlen := len.toNat_lt
  have hcount := fragmentCountForLength_toNat len
  have hidx : idx.toNat * 1212 < len.toNat := by omega
  have hne : ¬(fragmentCountForLength len = 0 ∨ fragmentCountForLength len ≤ idx) := by
    rintro (h0 | hle)
    · simp [h0] at h
    · exact absurd (UInt16.le_iff_toNat_le.mp hle) (by omega)
  have hoff : (UInt16.ofNat (idx.toNat * 1212)).toNat = idx.toNat * 1212 := by
    rw [UInt16.toNat_ofNat', Nat.mod_eq_of_lt (by omega)]
  have hsub : (len - UInt16.ofNat (idx.toNat * 1212)).toNat = len.toNat - idx.toNat * 1212 := by
    rw [UInt16.toNat_sub_of_le _ _ (UInt16.le_iff_toNat_le.mpr (by omega)), hoff]
  simp only [fragmentSizeForIndex, hne, if_false, NetConfig.maxFragmentDataBytes_eq]
  change (if len - UInt16.ofNat (idx.toNat * 1212) ≤ UInt16.ofNat 1212
    then len - UInt16.ofNat (idx.toNat * 1212) else UInt16.ofNat 1212).toNat = _
  split_ifs with hle
  · rw [UInt16.le_iff_toNat_le, hsub] at hle
    rw [hsub]
    exact (min_eq_left hle).symm
  · rw [UInt16.le_iff_toNat_le, hsub] at hle
    exact (min_eq_right (not_le.mp hle).le).symm

theorem fragmentSizeForIndex_pos (h : idx.toNat < (fragmentCountForLength len).toNat) :
    0 < (fragmentSizeForIndex len idx).toNat := by
  have hcount := fragmentCountForLength_toNat len
  rw [fragmentSizeForIndex_toNat h]
  omega

theorem fragmentSizeForIndex_le (h : idx.toNat < (fragmentCountForLength len).toNat) :
    (fragmentSizeForIndex len idx).toNat ≤ 1212 := by
  rw [fragmentSizeForIndex_toNat h]
  exact min_le_right _ _

namespace FragmentView

def encode (f : FragmentView) : Bytes :=
  be64 f.messageId ++ (be64 f.deliverySequence ++ (f.channel.code :: f.type ::
    (be16 f.fragmentIndex ++ (be16 f.fragmentCount ++ (be16 f.originalLength ++ f.data)))))

@[simp] theorem length_encode (f : FragmentView) : f.encode.length = 24 + f.data.length := by
  simp [encode]
  omega

/-- The metadata both ends insist on. -/
structure WellFormed (f : FragmentView) : Prop where
  messageId_ne : f.messageId ≠ 0
  application : f.channel ≠ .control
  originalLength_ne : f.originalLength ≠ 0
  count : f.fragmentCount = fragmentCountForLength f.originalLength
  index : f.fragmentIndex < f.fragmentCount
  size : f.data.length = (fragmentSizeForIndex f.originalLength f.fragmentIndex).toNat

namespace WellFormed

variable {f : FragmentView}

theorem index_toNat (h : f.WellFormed) :
    f.fragmentIndex.toNat < (fragmentCountForLength f.originalLength).toNat := by
  rw [← h.count]
  exact UInt16.lt_iff_toNat_lt.mp h.index

theorem data_le (h : f.WellFormed) : f.data.length ≤ 1212 := by
  rw [h.size]
  exact fragmentSizeForIndex_le h.index_toNat

end WellFormed

end FragmentView

namespace FragmentedMessage

open Chunks

def originalLength (m : FragmentedMessage) : UInt16 := UInt16.ofNat m.payload.length

def fragmentCount (m : FragmentedMessage) : UInt16 := fragmentCountForLength m.originalLength

/-- The piece of a message with a given index, as it travels. -/
def piece (m : FragmentedMessage) (i : UInt16) : FragmentView :=
  ⟨m.messageId, m.deliverySequence, m.channel, m.type, i, m.fragmentCount, m.originalLength,
    chunk NetConfig.maxFragmentDataBytes i.toNat m.payload⟩

/-- A message that can be cut: what `send_fragmented` has checked. -/
structure Sendable (m : FragmentedMessage) : Prop where
  messageId_ne : m.messageId ≠ 0
  application : m.channel ≠ .control
  nonempty : 0 < m.payload.length
  short : m.payload.length < 2 ^ 16

variable {m : FragmentedMessage}

theorem Sendable.originalLength_toNat (h : m.Sendable) :
    m.originalLength.toNat = m.payload.length := by
  rw [originalLength, UInt16.toNat_ofNat', Nat.mod_eq_of_lt h.short]

theorem Sendable.fragmentCount_toNat (h : m.Sendable) :
    m.fragmentCount.toNat = (m.payload.length + 1211) / 1212 := by
  rw [fragmentCount, fragmentCountForLength_toNat, h.originalLength_toNat]

theorem Sendable.piece_wellFormed (h : m.Sendable) {i : UInt16} (hi : i < m.fragmentCount) :
    (m.piece i).WellFormed where
  messageId_ne := h.messageId_ne
  application := h.application
  originalLength_ne := by
    intro h0
    have hlen := h.originalLength_toNat
    have hpos := h.nonempty
    change m.originalLength = 0 at h0
    rw [h0] at hlen
    simp at hlen
    simp [hlen] at hpos
  count := rfl
  index := hi
  size := by
    have hi' := UInt16.lt_iff_toNat_lt.mp hi
    change (chunk _ _ _).length = (fragmentSizeForIndex m.originalLength i).toNat
    rw [fragmentSizeForIndex_toNat hi', length_chunk, h.originalLength_toNat,
      NetConfig.maxFragmentDataBytes_eq, Nat.min_comm]

end FragmentedMessage

def writeFragmentPayload (w : ByteWriter) (f : FragmentView) : Result ByteWriter :=
  if f.messageId = 0 then fail .invalidArg "fragment message_id must be non-zero"
  else if !f.channel.isApplication then
    fail .invalidArg "fragment channel must be an application channel"
  else if f.originalLength = 0 then fail .invalidArg "fragment original length is invalid"
  else if f.fragmentCount = 0 ∨ f.fragmentCount ≠ fragmentCountForLength f.originalLength then
    fail .invalidArg "fragment count does not match original length"
  else if f.fragmentCount ≤ f.fragmentIndex then
    fail .invalidArg "fragment index out of range"
  else if f.data.length ≠ (fragmentSizeForIndex f.originalLength f.fragmentIndex).toNat then
    fail .invalidArg "fragment length does not match index/original length"
  else do
    let w ← w.writeU64 f.messageId
    let w ← w.writeU64 f.deliverySequence
    let w ← w.writeU8 f.channel.code
    let w ← w.writeU8 f.type
    let w ← w.writeU16 f.fragmentIndex
    let w ← w.writeU16 f.fragmentCount
    let w ← w.writeU16 f.originalLength
    w.writeBytes f.data

def readFragmentPayload (r : Bytes) : Result FragmentView :=
  if r.length < NetConfig.fragmentHeaderBytes then fail .badPacket "fragment payload truncated"
  else do
    let (messageId, r) ← readU64 r
    let (deliverySequence, r) ← readU64 r
    let (rawChannel, r) ← readU8 r
    let (type, r) ← readU8 r
    let (fragmentIndex, r) ← readU16 r
    let (fragmentCount, r) ← readU16 r
    let (originalLength, r) ← readU16 r
    match Channel.ofCode rawChannel with
    | none => fail .badPacket "fragment metadata is invalid"
    | some channel =>
      if messageId = 0 ∨ channel = .control then fail .badPacket "fragment metadata is invalid"
      else if fragmentCount = 0 ∨ fragmentCount ≤ fragmentIndex ∨ originalLength = 0 then
        fail .badPacket "fragment fields are inconsistent"
      else if fragmentCountForLength originalLength = 0 ∨
          fragmentCount ≠ fragmentCountForLength originalLength then
        fail .badPacket "fragment count does not match original length"
      else if fragmentSizeForIndex originalLength fragmentIndex = 0 then
        fail .badPacket "fragment index is impossible"
      else if r.length ≠ (fragmentSizeForIndex originalLength fragmentIndex).toNat then
        fail .badPacket "fragment payload length is invalid"
      else return ⟨messageId, deliverySequence, channel, type, fragmentIndex, fragmentCount,
        originalLength, r⟩

/-- A well-formed fragment is written as its encoding. -/
theorem writeFragmentPayload_eq {f : FragmentView} (hf : f.WellFormed) (w : ByteWriter) :
    writeFragmentPayload w f = w.writeBytes f.encode := by
  have happ : ¬(!f.channel.isApplication) = true := by simp [Channel.isApplication, hf.application]
  have hcount : ¬(f.fragmentCount = 0 ∨
      f.fragmentCount ≠ fragmentCountForLength f.originalLength) := by
    rintro (h0 | hne)
    · have := fragmentCountForLength_pos hf.originalLength_ne
      rw [← hf.count, h0] at this
      simp at this
    · exact hne hf.count
  have hidx : ¬f.fragmentCount ≤ f.fragmentIndex := UInt16.not_le.mpr hf.index
  unfold writeFragmentPayload
  rw [if_neg hf.messageId_ne, if_neg happ, if_neg hf.originalLength_ne, if_neg hcount,
    if_neg hidx, if_neg (not_not.mpr hf.size)]
  unfold ByteWriter.writeU64 ByteWriter.writeU8 ByteWriter.writeU16
  rw [ByteWriter.writeBytes_bind_bind, ByteWriter.writeBytes_bind_bind,
    ByteWriter.writeBytes_bind_bind, ByteWriter.writeBytes_bind_bind,
    ByteWriter.writeBytes_bind_bind, ByteWriter.writeBytes_bind_bind, ByteWriter.writeBytes_bind]
  simp [FragmentView.encode]

/-- The reader accepts exactly the encodings of well-formed fragments. -/
theorem readFragmentPayload_eq_ok {r : Bytes} {f : FragmentView} :
    readFragmentPayload r = .ok f ↔ r = f.encode ∧ f.WellFormed := by
  constructor
  · intro h
    unfold readFragmentPayload at h
    simp only [Result.guard_eq_ok, Result.bind_eq_ok, Prod.exists] at h
    obtain ⟨-, id, r₁, h₁, seq, r₂, h₂, raw, r₃, h₃, ty, r₄, h₄, idx, r₅, h₅, cnt, r₆, h₆,
      len, r₇, h₇, h⟩ := h
    obtain rfl := readU64_eq_ok.mp h₁
    obtain rfl := readU64_eq_ok.mp h₂
    obtain rfl := readU8_eq_ok.mp h₃
    obtain rfl := readU8_eq_ok.mp h₄
    obtain rfl := readU16_eq_ok.mp h₅
    obtain rfl := readU16_eq_ok.mp h₆
    obtain rfl := readU16_eq_ok.mp h₇
    cases hch : Channel.ofCode raw with
    | none => simp [hch] at h
    | some channel =>
      simp only [hch, Result.guard_eq_ok, Result.pure_eq, Except.ok.injEq, not_or, ne_eq,
        not_not, UInt16.not_le] at h
      obtain ⟨⟨hid, happ⟩, ⟨-, hlt, hlen⟩, ⟨-, hcount⟩, -, hsize, rfl⟩ := h
      refine ⟨?_, hid, happ, hlen, hcount, hlt, hsize⟩
      simp [FragmentView.encode, Channel.ofCode_eq_some.mp hch]
  · rintro ⟨rfl, hf⟩
    have hpos := fragmentCountForLength_pos hf.originalLength_ne
    have hne : fragmentCountForLength f.originalLength ≠ 0 := by
      intro h0
      simp [h0] at hpos
    have hsz : fragmentSizeForIndex f.originalLength f.fragmentIndex ≠ 0 := by
      intro h0
      have := fragmentSizeForIndex_pos hf.index_toNat
      simp [h0] at this
    have hidx : ¬f.fragmentCount ≤ f.fragmentIndex := UInt16.not_le.mpr hf.index
    unfold readFragmentPayload
    rw [if_neg (by simp)]
    simp only [FragmentView.encode, readU64_append, readU8_cons, readU16_append, Result.ok_bind,
      Channel.ofCode_code]
    rw [← hf.count] at hne
    simp [hf.messageId_ne, hf.application, hf.originalLength_ne, ← hf.count, hf.size, hsz, hidx,
      hne]

theorem writeFragmentPayload_eq_ok {w w' : ByteWriter} {f : FragmentView} :
    writeFragmentPayload w f = .ok w' ↔ f.WellFormed ∧ w.writeBytes f.encode = .ok w' := by
  constructor
  · intro h
    have hf : f.WellFormed := by
      unfold writeFragmentPayload at h
      simp only [Result.guard_eq_ok, not_or, not_not, ne_eq, UInt16.not_le, Channel.isApplication,
        Bool.not_eq_true', decide_eq_false_iff_not] at h
      obtain ⟨hid, happ, hlen, ⟨-, hcount⟩, hindex, hsize, -⟩ := h
      exact ⟨hid, happ, hlen, hcount, hindex, hsize⟩
    rw [writeFragmentPayload_eq hf] at h
    exact ⟨hf, h⟩
  · rintro ⟨hf, h⟩
    rw [writeFragmentPayload_eq hf]
    exact h

theorem ByteWriter.writeBytes_exact {r p : Bytes} :
    (⟨r.length, []⟩ : ByteWriter).writeBytes p = .ok ⟨r.length, r⟩ ↔ r = p := by
  rw [ByteWriter.writeBytes_fresh]
  constructor
  · intro h
    split_ifs at h
    · cases h
      rfl
    · cases h
  · rintro rfl
    rw [if_pos le_rfl]

theorem writeEnvelope_read {zeroMsg largeMsg shortMsg zeroMsg' largeMsg' : String} {maxLen : ℕ}
    {number : UInt64} {data : Bytes} (hnumber : number ≠ 0) (hlen : data.length ≤ maxLen)
    (hmax : maxLen ≤ 0xFFFF) :
    ∃ w, writeEnvelope zeroMsg largeMsg maxLen ⟨8 + data.length, []⟩ number data = .ok w ∧
      readEnvelope shortMsg zeroMsg' largeMsg' w.out = .ok (number, data) := by
  refine ⟨⟨8 + data.length, be64 number ++ data⟩, ?_, ?_⟩
  · rw [writeEnvelope_eq, if_neg hnumber, if_neg (not_lt.mpr hlen), ByteWriter.writeBytes_fresh,
      if_pos (by simp)]
  · exact readEnvelope_eq_ok.mpr ⟨rfl, hnumber, hlen.trans hmax⟩

/-- The envelopes are read back from an exactly sized buffer, and the readers of acknowledgements
and fragments accept exactly what their writers write. -/
theorem delivery_codecs :
    (∀ (number : UInt64) (data : Bytes), number ≠ 0 →
      (data.length ≤ NetConfig.maxReliableMessageBytes →
        ∃ w, writeReliablePayload ⟨8 + data.length, []⟩ number data = .ok w ∧
          readReliablePayload w.out = .ok (number, data)) ∧
      (data.length ≤ NetConfig.maxOrderedMessageBytes →
        ∃ w, writeOrderedPayload ⟨8 + data.length, []⟩ number data = .ok w ∧
          readOrderedPayload w.out = .ok (number, data)) ∧
      (data.length ≤ NetConfig.maxSequencedMessageBytes →
        ∃ w, writeSequencedPayload ⟨8 + data.length, []⟩ number data = .ok w ∧
          readSequencedPayload w.out = .ok (number, data))) ∧
    (∀ (channel : Channel) (messageId : UInt64), channel.isReliable = true → messageId ≠ 0 →
      ∃ w, writeReliableAck ⟨9, []⟩ channel messageId = .ok w ∧
        readReliableAck w.out = .ok (channel, messageId)) ∧
    (∀ f : FragmentView, f.WellFormed →
      ∃ w, writeFragmentPayload ⟨24 + f.data.length, []⟩ f = .ok w ∧
        readFragmentPayload w.out = .ok f) ∧
    (∀ (r : Bytes) (channel : Channel) (messageId : UInt64),
      readReliableAck r = .ok (channel, messageId) ↔
        writeReliableAck ⟨r.length, []⟩ channel messageId = .ok ⟨r.length, r⟩) ∧
    ∀ (r : Bytes) (f : FragmentView), readFragmentPayload r = .ok f ↔
      writeFragmentPayload ⟨r.length, []⟩ f = .ok ⟨r.length, r⟩ := by
  have hack : ∀ (r : Bytes) (channel : Channel) (messageId : UInt64),
      readReliableAck r = .ok (channel, messageId) ↔
        writeReliableAck ⟨r.length, []⟩ channel messageId = .ok ⟨r.length, r⟩ := by
    intro r channel messageId
    rw [readReliableAck_eq_ok, writeReliableAck_eq, Result.guard_eq_ok, Result.guard_eq_ok,
      ByteWriter.writeBytes_exact]
    cases channel.isReliable <;> simp [and_comm]
  have hfragment : ∀ (r : Bytes) (f : FragmentView), readFragmentPayload r = .ok f ↔
      writeFragmentPayload ⟨r.length, []⟩ f = .ok ⟨r.length, r⟩ := by
    intro r f
    rw [readFragmentPayload_eq_ok, writeFragmentPayload_eq_ok, ByteWriter.writeBytes_exact,
      and_comm]
  refine ⟨fun number data hnumber => ⟨fun hlen => ?_, fun hlen => ?_, fun hlen => ?_⟩,
    fun channel messageId hchannel hid => ?_, fun f hf => ?_, hack, hfragment⟩
  · exact writeEnvelope_read hnumber hlen (by decide)
  · exact writeEnvelope_read hnumber hlen (by decide)
  · exact writeEnvelope_read hnumber hlen (by decide)
  · have hread := readReliableAck_eq_ok.mpr ⟨rfl, hchannel, hid⟩
    have hwrite := (hack _ channel messageId).mp hread
    rw [length_encodeAck] at hwrite
    exact ⟨_, hwrite, hread⟩
  · have hread := readFragmentPayload_eq_ok.mpr ⟨rfl, hf⟩
    have hwrite := (hfragment _ f).mp hread
    rw [FragmentView.length_encode] at hwrite
    exact ⟨_, hwrite, hread⟩

/-- The last piece of a message of 65535 bytes. -/
theorem delivery_codecs_last_piece : ∃ w,
    writeFragmentPayload ⟨24 + 87, []⟩
      ⟨7, 0, .reliable, 1, 54, 55, 65535, List.replicate 87 5⟩ = .ok w ∧
    readFragmentPayload w.out = .ok ⟨7, 0, .reliable, 1, 54, 55, 65535, List.replicate 87 5⟩ :=
  delivery_codecs.2.2.1 _ ⟨by decide, by decide, by decide, by decide, by decide, by decide⟩

end SecureCnet
