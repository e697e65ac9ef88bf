import SecureCnet.Wire.ByteBuf

/-!
# Packets

The 28-byte header and the two operations on whole datagrams. `parsePacket`
accepts exactly the strings `packPacket` produces from a valid header.
-/

namespace SecureCnet

open ByteReader

inductive PacketKind
  | raw | handshake | message | keepalive | close
  deriving DecidableEq, Repr

namespace PacketKind

def code : PacketKind → UInt8
  | raw => 0
  | handshake => 1
  | message => 2
  | keepalive => 3
  | close => 4

def ofCode (b : UInt8) : Option PacketKind :=
  if b = 0 then some raw
  else if b = 1 then some handshake
  else if b = 2 then some message
  else if b = 3 then some keepalive
  else if b = 4 then some close
  else none

@[simp] theorem ofCode_code (kind : PacketKind) : ofCode kind.code = some kind := by
  cases kind <;> rfl

theorem ofCode_eq_some {b : UInt8} {kind : PacketKind} : ofCode b = some kind ↔ b = kind.code := by
  constructor
  · intro h
    unfold ofCode at h
    split_ifs at h with h0 h1 h2 h3 h4 <;> cases h <;> assumption
  · rintro rfl
    exact ofCode_code kind

theorem code_inj {a b : PacketKind} (h : a.code = b.code) : a = b := by
  have ha := ofCode_eq_some.mpr h
  rw [ofCode_eq_some.mpr rfl, Option.some.injEq] at ha
  exact ha

end PacketKind

def packetFlagEncrypted : UInt8 := 0x01
def packetKnownFlags : UInt8 := packetFlagEncrypted

structure PacketHeader where
  magic : UInt32 := NetConfig.magic
  version : UInt16 := NetConfig.protocolVersion
  kind : UInt8 := PacketKind.raw.code
  flags : UInt8 := 0
  connId : UInt64 := 0
  seq : UInt64 := 0
  payloadLen : UInt32 := 0
  deriving DecidableEq, Repr

structure PacketView where
  h : PacketHeader
  payload : Bytes
  deriving DecidableEq, Repr

def packetKindValid (kind : UInt8) : Bool := kind ≤ PacketKind.close.code

def packetHeaderEncrypted (h : PacketHeader) : Bool := h.flags &&& packetFlagEncrypted ≠ 0

def validatePacketHeader (h : PacketHeader) : Result Unit :=
  if h.magic ≠ NetConfig.magic then fail .badPacket "bad magic"
  else if h.version ≠ NetConfig.protocolVersion then
    fail .unsupportedVersion "unsupported version"
  else if !packetKindValid h.kind then fail .badPacket "invalid packet kind"
  else if h.flags &&& ~~~packetKnownFlags ≠ 0 then fail .badPacket "invalid packet flags"
  else if NetConfig.maxPayloadBytes < h.payloadLen.toNat then
    fail .badPacket "payload_len exceeds max"
  else .ok ()

def writePacketHeader (w : ByteWriter) (h : PacketHeader) : Result ByteWriter := do
  let w ← w.writeU32 h.magic
  let w ← w.writeU16 h.version
  let w ← w.writeU8 h.kind
  let w ← w.writeU8 h.flags
  let w ← w.writeU64 h.connId
  let w ← w.writeU64 h.seq
  w.writeU32 h.payloadLen

def readPacketHeader (r : Bytes) : Result (PacketHeader × Bytes) := do
  let (magic, r) ← readU32 r
  let (version, r) ← readU16 r
  let (kind, r) ← readU8 r
  let (flags, r) ← readU8 r
  let (connId, r) ← readU64 r
  let (seq, r) ← readU64 r
  let (payloadLen, r) ← readU32 r
  return (⟨magic, version, kind, flags, connId, seq, payloadLen⟩, r)

def packPacket (h : PacketHeader) (payload : Bytes) (outCap : ℕ) : Result Bytes :=
  if NetConfig.maxPayloadBytes < payload.length then fail .invalidArg "payload too large"
  else if h.payloadLen ≠ UInt32.ofNat payload.length then
    fail .invalidArg "header payload_len mismatch"
  else
    match validatePacketHeader h with
    | .error ⟨.unsupportedVersion, _⟩ | .ok () =>
      if outCap < NetConfig.packetHeaderBytes + payload.length then
        fail .truncated "out buffer too small"
      else do
        let w ← writePacketHeader ⟨outCap, []⟩ h
        let w ← w.writeBytes payload
        return w.out
    | .error e => .error e

def parsePacket (input : Bytes) : Result PacketView :=
  if input.length < NetConfig.packetHeaderBytes then fail .truncated "packet header truncated"
  else do
    let (h, r) ← readPacketHeader input
    validatePacketHeader h
    if r.length < h.payloadLen.toNat then fail .truncated "payload truncated"
    else if r.length ≠ h.payloadLen.toNat then fail .badPacket "extra bytes after payload"
    else return ⟨h, r⟩

namespace PacketHeader

def encode (h : PacketHeader) : Bytes :=
  be32 h.magic ++ (be16 h.version ++ (h.kind :: h.flags ::
    (be64 h.connId ++ (be64 h.seq ++ be32 h.payloadLen))))

@[simp] theorem length_encode (h : PacketHeader) : h.encode.length = 28 := by
  simp [encode]

end PacketHeader

theorem writePacketHeader_eq (w : ByteWriter) (h : PacketHeader) :
    writePacketHeader w h = w.writeBytes h.encode := by
  unfold writePacketHeader ByteWriter.writeU32 ByteWriter.writeU16 ByteWriter.writeU8
    ByteWriter.writeU64
  rw [ByteWriter.writeBytes_bind_bind, ByteWriter.writeBytes_bind_bind,
    ByteWriter.writeBytes_bind_bind, ByteWriter.writeBytes_bind_bind,
    ByteWriter.writeBytes_bind_bind, ByteWriter.writeBytes_bind]
  simp [PacketHeader.encode]

theorem readPacketHeader_eq_ok {r rest : Bytes} {h : PacketHeader} :
    readPacketHeader r = .ok (h, rest) ↔ r = h.encode ++ rest := by
  unfold readPacketHeader
  constructor
  · intro hr
    simp only [Result.bind_eq_ok, Prod.exists, Result.pure_eq, Except.ok.injEq,
      Prod.mk.injEq] at hr
    obtain ⟨m, r₁, h₁, v, r₂, h₂, k, r₃, h₃, f, r₄, h₄, c, r₅, h₅, s, r₆, h₆, l, r₇, h₇,
      rfl, rfl⟩ := hr
    obtain rfl := readU32_eq_ok.mp h₁
    obtain rfl := readU16_eq_ok.mp h₂
    obtain rfl := readU8_eq_ok.mp h₃
    obtain rfl := readU8_eq_ok.mp h₄
    obtain rfl := readU64_eq_ok.mp h₅
    obtain rfl := readU64_eq_ok.mp h₆
    obtain rfl := readU32_eq_ok.mp h₇
    simp [PacketHeader.encode]
  · rintro rfl
    simp [PacketHeader.encode]

theorem packPacket_of_valid {h : PacketHeader} {payload : Bytes} {outCap : ℕ}
    (hv : validatePacketHeader h = .ok ()) (hlen : payload.length ≤ NetConfig.maxPayloadBytes)
    (hp : h.payloadLen = UInt32.ofNat payload.length)
    (hcap : NetConfig.packetHeaderBytes + payload.length ≤ outCap) :
    packPacket h payload outCap = .ok (h.encode ++ payload) := by
  unfold packPacket
  rw [if_neg (not_lt.mpr hlen), if_neg (not_not.mpr hp), hv]
  simp only [if_neg (not_lt.mpr hcap), writePacketHeader_eq]
  rw [ByteWriter.writeBytes_of_le (by simp at hcap ⊢; omega), Result.ok_bind,
    ByteWriter.writeBytes_of_le (by simp at hcap ⊢; omega)]
  simp

/-- `parsePacket` accepts exactly the packed form of a valid header and its payload. -/
theorem parsePacket_eq_ok {d : Bytes} {p : PacketView} :
    parsePacket d = .ok p ↔ d = p.h.encode ++ p.payload ∧
      validatePacketHeader p.h = .ok () ∧ p.payload.length = p.h.payloadLen.toNat := by
  unfold parsePacket
  constructor
  · intro h
    simp only [Result.guard_eq_ok, Result.bind_eq_ok, Prod.exists, Result.pure_eq,
      Except.ok.injEq, ne_eq, not_not] at h
    obtain ⟨-, hd, r, hr, ⟨⟩, hv, -, hlen, rfl⟩ := h
    exact ⟨readPacketHeader_eq_ok.mp hr, hv, hlen⟩
  · rintro ⟨rfl, hv, hlen⟩
    rw [if_neg (by simp), readPacketHeader_eq_ok.mpr rfl]
    simp [hv, hlen]

/-- The known flags are the encryption bit alone. -/
theorem flags_known_iff {flags : UInt8} :
    flags &&& ~~~packetKnownFlags = 0 ↔ flags = 0 ∨ flags = packetFlagEncrypted := by
  constructor
  · intro hknown
    have hmask : flags &&& packetFlagEncrypted = flags := by
      apply UInt8.eq_of_toBitVec_eq
      apply BitVec.eq_of_getLsbD_eq
      intro i hi
      have hbit := congrArg (fun f => f.toBitVec.getLsbD i) hknown
      simp [hi, packetKnownFlags] at hbit ⊢
      exact hbit
    have hlow := congrArg UInt8.toNat hmask
    rw [UInt8.toNat_and, show packetFlagEncrypted.toNat = 1 from rfl, Nat.and_one_is_mod] at hlow
    have hcases : flags.toNat = 0 ∨ flags.toNat = 1 := by omega
    exact hcases.imp UInt8.toNat_inj.mp UInt8.toNat_inj.mp
  · rintro (rfl | rfl) <;> rfl

/-- What the format demands of a header and its payload. -/
structure PacketView.Canonical (p : PacketView) : Prop where
  magic : p.h.magic = NetConfig.magic
  version : p.h.version = 3
  kind : p.h.kind ≤ 4
  flags : p.h.flags = 0 ∨ p.h.flags = 1
  short : p.payload.length ≤ 1272
  payloadLen : p.h.payloadLen = UInt32.ofNat p.payload.length

/-- The header checks and the length check are those of the format. -/
theorem canonical_iff {p : PacketView} :
    p.Canonical ↔
      validatePacketHeader p.h = .ok () ∧ p.payload.length = p.h.payloadLen.toNat := by
  have hfits : ∀ {n : ℕ}, n ≤ 1272 → (UInt32.ofNat n).toNat = n := by
    intro n hn
    rw [UInt32.toNat_ofNat', Nat.mod_eq_of_lt (by omega)]
  unfold validatePacketHeader
  simp only [Result.guard_eq_ok]
  simp only [ne_eq, not_not, flags_known_iff, packetKindValid, Bool.not_eq_true',
    decide_eq_false_iff_not, not_lt, NetConfig.maxPayloadBytes_eq]
  constructor
  · intro h
    have hlen : p.h.payloadLen.toNat = p.payload.length := by
      rw [h.payloadLen, hfits h.short]
    exact ⟨⟨h.magic, h.version, h.kind, h.flags, hlen ▸ h.short, trivial⟩, hlen.symm⟩
  · rintro ⟨⟨hmagic, hversion, hkind, hflags, hshort, -⟩, hlen⟩
    refine ⟨hmagic, hversion, hkind, hflags, hlen ▸ hshort, ?_⟩
    rw [hlen, UInt32.ofNat_toNat]

theorem length_of_parsePacket {bytes : Bytes} {packet : PacketView}
    (h : parsePacket bytes = .ok packet) : bytes.length ≤ NetConfig.maxPacketBytes := by
  obtain ⟨rfl, hvalid⟩ := parsePacket_eq_ok.mp h
  have hshort := (canonical_iff.mpr hvalid).short
  rw [List.length_append, PacketHeader.length_encode, NetConfig.maxPacketBytes_eq]
  omega

/-- Packing and parsing are inverse to each other between the canonical packets and the strings
that are accepted, and the header the receiver authenticates is the one on the wire. -/
theorem packet_format_canonical :
    (∀ (p : PacketView) (outCap : ℕ), p.Canonical → 28 + p.payload.length ≤ outCap →
      ∃ b, packPacket p.h p.payload outCap = .ok b ∧ parsePacket b = .ok p) ∧
    (∀ (b : Bytes) (p : PacketView), parsePacket b = .ok p →
      (∀ outCap, b.length ≤ outCap → packPacket p.h p.payload outCap = .ok b) ∧
        writePacketHeader ⟨NetConfig.packetHeaderBytes, []⟩ p.h =
          .ok ⟨NetConfig.packetHeaderBytes, b.take 28⟩) ∧
    ∀ b : Bytes, (∃ p, parsePacket b = .ok p) ↔
      ∃ p : PacketView, p.Canonical ∧ packPacket p.h p.payload NetConfig.maxPacketBytes = .ok b := by
  have hpack : ∀ {p : PacketView} {outCap : ℕ}, p.Canonical → 28 + p.payload.length ≤ outCap →
      packPacket p.h p.payload outCap = .ok (p.h.encode ++ p.payload) := by
    intro p outCap h hcap
    exact packPacket_of_valid (canonical_iff.mp h).1 h.short h.payloadLen hcap
  have hparse : ∀ {p : PacketView}, p.Canonical →
      parsePacket (p.h.encode ++ p.payload) = .ok p := by
    intro p h
    exact parsePacket_eq_ok.mpr ⟨rfl, canonical_iff.mp h⟩
  refine ⟨?_, ?_, ?_⟩
  · intro p outCap h hcap
    exact ⟨_, hpack h hcap, hparse h⟩
  · intro b p h
    obtain ⟨rfl, hvalid⟩ := parsePacket_eq_ok.mp h
    constructor
    · intro outCap hcap
      rw [List.length_append, PacketHeader.length_encode] at hcap
      exact hpack (canonical_iff.mpr hvalid) hcap
    · rw [writePacketHeader_eq, ByteWriter.writeBytes_fresh, if_pos (by simp),
        List.take_left' (PacketHeader.length_encode p.h)]
  · intro b
    constructor
    · rintro ⟨p, h⟩
      obtain ⟨rfl, hvalid⟩ := parsePacket_eq_ok.mp h
      have hcanon := canonical_iff.mpr hvalid
      have hshort := hcanon.short
      exact ⟨p, hcanon, hpack hcanon (by simp; omega)⟩
    · rintro ⟨p, hcanon, hb⟩
      have hshort := hcanon.short
      rw [hpack hcanon (by simp; omega)] at hb
      cases hb
      exact ⟨p, hparse hcanon⟩

/-- A packet of two bytes. -/
theorem packet_format_canonical_two_bytes :
    ∃ b, packPacket { kind := 3, flags := 1, connId := 7, seq := 9, payloadLen := 2 } [5, 6] 1300 =
        .ok b ∧
      parsePacket b =
        .ok ⟨{ kind := 3, flags := 1, connId := 7, seq := 9, payloadLen := 2 }, [5, 6]⟩ :=
  packet_format_canonical.1 ⟨{ kind := 3, flags := 1, connId := 7, seq := 9, payloadLen := 2 },
    [5, 6]⟩ 1300 ⟨rfl, rfl, by decide, Or.inr rfl, by decide, rfl⟩ (by decide)

end SecureCnet
