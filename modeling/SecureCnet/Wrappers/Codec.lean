import SecureCnet.Wire.ByteBuf

/-!
# Application codec

`BinaryWriter` and `BinaryReader` put typed fields into a buffer and take them out again.
A field is its encoding: the writer appends it, and the reader that knows the kind of the
field takes exactly the encodings of its values off the front of its input. Lists of fields
inherit that, so no part of what was written can be read as something else.
-/

namespace SecureCnet

open ByteReader

/-- What a call of the writer is given. -/
inductive Field
  | u8 (value : UInt8)
  | i8 (value : Int8)
  | u16 (value : UInt16)
  | i16 (value : Int16)
  | u32 (value : UInt32)
  | i32 (value : Int32)
  | u64 (value : UInt64)
  | i64 (value : Int64)
  | bytes (value : Bytes)
  | sizedBytes (value : Bytes)
  | string (value : Bytes)
  deriving DecidableEq

/-- What a call of the reader is asked for. -/
inductive FieldKind
  | u8 | i8 | u16 | i16 | u32 | i32 | u64 | i64
  | bytes (len : ℕ)
  | sizedBytes
  | string
  deriving DecidableEq

def Field.kind : Field → FieldKind
  | .u8 _ => .u8
  | .i8 _ => .i8
  | .u16 _ => .u16
  | .i16 _ => .i16
  | .u32 _ => .u32
  | .i32 _ => .i32
  | .u64 _ => .u64
  | .i64 _ => .i64
  | .bytes value => .bytes value.length
  | .sizedBytes _ => .sizedBytes
  | .string _ => .string

namespace BinaryWriter

def sizedBytes (w : ByteWriter) (value : Bytes) : Result ByteWriter :=
  if 0xFFFF < value.length then fail .tooLarge "sized byte payload too large"
  else do
    let w ← w.writeU16 (UInt16.ofNat value.length)
    w.writeBytes value

def write (w : ByteWriter) : Field → Result ByteWriter
  | .u8 value => w.writeU8 value
  | .i8 value => w.writeU8 value.toUInt8
  | .u16 value => w.writeU16 value
  | .i16 value => w.writeU16 value.toUInt16
  | .u32 value => w.writeU32 value
  | .i32 value => w.writeU32 value.toUInt32
  | .u64 value => w.writeU64 value
  | .i64 value => w.writeU64 value.toUInt64
  | .bytes value => w.writeBytes value
  | .sizedBytes value | .string value => sizedBytes w value

def writeAll : ByteWriter → List Field → Result ByteWriter
  | w, [] => .ok w
  | w, field :: fields => do
    let w ← write w field
    writeAll w fields

end BinaryWriter

namespace BinaryReader

def sizedBytes (r : Bytes) : Result (Bytes × Bytes) := do
  let (len, r) ← readU16 r
  readBytes len.toNat r

/-- The bytes are looked at before they are skipped. -/
def stringView (r : Bytes) : Result (Bytes × Bytes) := do
  let (len, r) ← readU16 r
  if 0 < len ∧ r.length < len.toNat then fail .truncated "truncated string payload"
  else readBytes len.toNat r

def read (r : Bytes) : FieldKind → Result (Field × Bytes)
  | .u8 => do let (value, r) ← readU8 r; return (.u8 value, r)
  | .i8 => do let (value, r) ← readU8 r; return (.i8 value.toInt8, r)
  | .u16 => do let (value, r) ← readU16 r; return (.u16 value, r)
  | .i16 => do let (value, r) ← readU16 r; return (.i16 value.toInt16, r)
  | .u32 => do let (value, r) ← readU32 r; return (.u32 value, r)
  | .i32 => do let (value, r) ← readU32 r; return (.i32 value.toInt32, r)
  | .u64 => do let (value, r) ← readU64 r; return (.u64 value, r)
  | .i64 => do let (value, r) ← readU64 r; return (.i64 value.toInt64, r)
  | .bytes len => do let (value, r) ← readBytes len r; return (.bytes value, r)
  | .sizedBytes => do let (value, r) ← sizedBytes r; return (.sizedBytes value, r)
  | .string => do let (value, r) ← stringView r; return (.string value, r)

def readAll : Bytes → List FieldKind → Result (List Field × Bytes)
  | r, [] => .ok ([], r)
  | r, kind :: kinds => do
    let (field, r) ← read r kind
    let (fields, r) ← readAll r kinds
    return (field :: fields, r)

end BinaryReader

namespace Field

def encodeSized (value : Bytes) : Bytes := be16 (UInt16.ofNat value.length) ++ value

def encode : Field → Bytes
  | .u8 value => [value]
  | .i8 value => [value.toUInt8]
  | .u16 value => be16 value
  | .i16 value => be16 value.toUInt16
  | .u32 value => be32 value
  | .i32 value => be32 value.toUInt32
  | .u64 value => be64 value
  | .i64 value => be64 value.toUInt64
  | .bytes value => value
  | .sizedBytes value | .string value => encodeSized value

/-- The length of the field fits into its prefix. -/
def Fits : Field → Prop
  | .sizedBytes value | .string value => value.length ≤ 0xFFFF
  | _ => True

end Field

namespace BinaryWriter

variable {w w' : ByteWriter}

theorem sizedBytes_eq_ok {value : Bytes} :
    sizedBytes w value = .ok w' ↔
      value.length ≤ 0xFFFF ∧ w.writeBytes (Field.encodeSized value) = .ok w' := by
  unfold sizedBytes ByteWriter.writeU16
  rw [ByteWriter.writeBytes_bind, Result.guard_eq_ok, not_lt]
  rfl

theorem write_eq_ok {field : Field} :
    write w field = .ok w' ↔ field.Fits ∧ w.writeBytes field.encode = .ok w' := by
  cases field with
  | sizedBytes value => exact sizedBytes_eq_ok
  | string value => exact sizedBytes_eq_ok
  | _ => exact (true_and _).symm.to_iff

theorem writeAll_eq_ok {fields : List Field} :
    writeAll w fields = .ok w' ↔
      (∀ f ∈ fields, f.Fits) ∧ w.writeBytes (fields.flatMap Field.encode) = .ok w' := by
  induction fields generalizing w with
  | nil => simp [writeAll, ByteWriter.writeBytes_nil]
  | cons field fields ih =>
    rw [writeAll, Result.bind_eq_ok, List.forall_mem_cons, List.flatMap_cons,
      ← ByteWriter.writeBytes_bind, Result.bind_eq_ok]
    simp only [write_eq_ok, ih]
    constructor
    · rintro ⟨w₁, ⟨hfit, hw⟩, hfits, hrest⟩
      exact ⟨⟨hfit, hfits⟩, w₁, hw, hrest⟩
    · rintro ⟨⟨hfit, hfits⟩, w₁, hw, hrest⟩
      exact ⟨w₁, ⟨hfit, hw⟩, hfits, hrest⟩

end BinaryWriter

namespace BinaryReader

variable {r rest value : Bytes}

theorem readSized_eq_ok :
    (∃ len r', readU16 r = .ok (len, r') ∧ readBytes len.toNat r' = .ok (value, rest)) ↔
      r = Field.encodeSized value ++ rest ∧ value.length ≤ 0xFFFF := by
  simp only [readU16_eq_ok, readBytes_eq_ok]
  constructor
  · rintro ⟨len, r', rfl, rfl, hlen⟩
    refine ⟨?_, Nat.le_of_lt_succ (hlen ▸ len.toNat_lt)⟩
    rw [Field.encodeSized, hlen, UInt16.ofNat_toNat, List.append_assoc]
  · rintro ⟨rfl, hlen⟩
    refine ⟨UInt16.ofNat value.length, value ++ rest, List.append_assoc .., rfl, ?_⟩
    rw [UInt16.toNat_ofNat', Nat.mod_eq_of_lt (Nat.lt_succ_of_le hlen)]

theorem sizedBytes_eq_ok : sizedBytes r = .ok (value, rest) ↔
    r = Field.encodeSized value ++ rest ∧ value.length ≤ 0xFFFF := by
  rw [← readSized_eq_ok, sizedBytes, Result.bind_eq_ok]
  simp only [Prod.exists]

theorem stringView_eq_ok : stringView r = .ok (value, rest) ↔
    r = Field.encodeSized value ++ rest ∧ value.length ≤ 0xFFFF := by
  rw [← readSized_eq_ok, stringView, Result.bind_eq_ok]
  simp only [Prod.exists, Result.guard_eq_ok]
  refine exists_congr fun len => exists_congr fun r' => and_congr_right fun _ => ?_
  refine and_iff_right_of_imp fun h => ?_
  obtain ⟨rfl, hlen⟩ := readBytes_eq_ok.mp h
  rw [List.length_append]
  omega

theorem read_encode {field : Field} (hfit : field.Fits) (rest : Bytes) :
    read (field.encode ++ rest) field.kind = .ok (field, rest) := by
  cases field with
  | bytes value => simp [read, Field.encode, Field.kind, readBytes_append rfl]
  | sizedBytes value => simp [read, Field.encode, Field.kind, sizedBytes_eq_ok.mpr ⟨rfl, hfit⟩]
  | string value => simp [read, Field.encode, Field.kind, stringView_eq_ok.mpr ⟨rfl, hfit⟩]
  | _ => simp [read, Field.encode, Field.kind]

/-- The reader takes exactly the encodings of the fields of the kind. -/
theorem read_eq_ok {kind : FieldKind} {field : Field} :
    read r kind = .ok (field, rest) ↔
      r = field.encode ++ rest ∧ field.Fits ∧ field.kind = kind := by
  constructor
  · intro h
    cases kind with
    | u8 | i8 =>
      obtain ⟨⟨value, r'⟩, hvalue, h⟩ := Result.bind_eq_ok.mp h
      cases h
      obtain rfl := readU8_eq_ok.mp hvalue
      simp [Field.encode, Field.Fits, Field.kind]
    | u16 | i16 =>
      obtain ⟨⟨value, r'⟩, hvalue, h⟩ := Result.bind_eq_ok.mp h
      cases h
      obtain rfl := readU16_eq_ok.mp hvalue
      simp [Field.encode, Field.Fits, Field.kind]
    | u32 | i32 =>
      obtain ⟨⟨value, r'⟩, hvalue, h⟩ := Result.bind_eq_ok.mp h
      cases h
      obtain rfl := readU32_eq_ok.mp hvalue
      simp [Field.encode, Field.Fits, Field.kind]
    | u64 | i64 =>
      obtain ⟨⟨value, r'⟩, hvalue, h⟩ := Result.bind_eq_ok.mp h
      cases h
      obtain rfl := readU64_eq_ok.mp hvalue
      simp [Field.encode, Field.Fits, Field.kind]
    | bytes len =>
      obtain ⟨⟨value, r'⟩, hvalue, h⟩ := Result.bind_eq_ok.mp h
      cases h
      obtain ⟨rfl, rfl⟩ := readBytes_eq_ok.mp hvalue
      exact ⟨rfl, trivial, rfl⟩
    | sizedBytes =>
      obtain ⟨⟨value, r'⟩, hvalue, h⟩ := Result.bind_eq_ok.mp h
      cases h
      obtain ⟨rfl, hfit⟩ := sizedBytes_eq_ok.mp hvalue
      exact ⟨rfl, hfit, rfl⟩
    | string =>
      obtain ⟨⟨value, r'⟩, hvalue, h⟩ := Result.bind_eq_ok.mp h
      cases h
      obtain ⟨rfl, hfit⟩ := stringView_eq_ok.mp hvalue
      exact ⟨rfl, hfit, rfl⟩
  · rintro ⟨rfl, hfit, rfl⟩
    exact read_encode hfit rest

theorem readAll_eq_ok {kinds : List FieldKind} {fields : List Field} :
    readAll r kinds = .ok (fields, rest) ↔
      r = fields.flatMap Field.encode ++ rest ∧ (∀ f ∈ fields, f.Fits) ∧
        fields.map Field.kind = kinds := by
  induction kinds generalizing r fields with
  | nil =>
    simp only [readAll, Except.ok.injEq, Prod.mk.injEq, List.map_eq_nil_iff]
    constructor
    · rintro ⟨rfl, rfl⟩
      simp
    · rintro ⟨rfl, -, rfl⟩
      simp
  | cons kind kinds ih =>
    rw [readAll, Result.bind_eq_ok]
    constructor
    · rintro ⟨⟨field, r₁⟩, hfield, h⟩
      rw [Result.bind_eq_ok] at h
      obtain ⟨⟨fields', r₂⟩, hfields, h⟩ := h
      cases h
      obtain ⟨rfl, hfit, rfl⟩ := read_eq_ok.mp hfield
      obtain ⟨rfl, hfits, rfl⟩ := ih.mp hfields
      exact ⟨by simp, List.forall_mem_cons.mpr ⟨hfit, hfits⟩, rfl⟩
    · rintro ⟨rfl, hfits, hkinds⟩
      cases fields with
      | nil => cases hkinds
      | cons field fields =>
        obtain ⟨hkind, hkinds⟩ := List.cons.inj hkinds
        obtain ⟨hfit, hfits⟩ := List.forall_mem_cons.mp hfits
        refine ⟨(field, fields.flatMap Field.encode ++ rest),
          read_eq_ok.mpr ⟨by simp, hfit, hkind⟩, ?_⟩
        rw [Result.bind_eq_ok]
        exact ⟨(fields, rest), ih.mpr ⟨rfl, hfits, hkinds⟩, rfl⟩

end BinaryReader

/-- What was written is read back to the last byte, and nothing is read from less. -/
theorem codec_round_trip (fields : List Field) (cap : ℕ) (w : ByteWriter)
    (h : BinaryWriter.writeAll ⟨cap, []⟩ fields = .ok w) :
    BinaryReader.readAll w.out (fields.map Field.kind) = .ok (fields, []) ∧
      ∀ r, r <+: w.out → r ≠ w.out →
        ∃ e, BinaryReader.readAll r (fields.map Field.kind) = .error e := by
  obtain ⟨hfits, hw⟩ := BinaryWriter.writeAll_eq_ok.mp h
  have hout : w.out = fields.flatMap Field.encode := by
    rw [ByteWriter.writeBytes_fresh] at hw
    split_ifs at hw
    · cases hw
      rfl
    · cases hw
  refine ⟨?_, fun r hr hne => ?_⟩
  · exact BinaryReader.readAll_eq_ok.mpr ⟨by rw [hout, List.append_nil], hfits, rfl⟩
  · cases hread : BinaryReader.readAll r (fields.map Field.kind) with
    | error e => exact ⟨e, rfl⟩
    | ok result =>
      -- The longer string would be read as the same fields, with bytes left over.
      obtain ⟨fields', rest⟩ := result
      obtain ⟨hr', hfits', hkinds⟩ := BinaryReader.readAll_eq_ok.mp hread
      obtain ⟨more, hmore⟩ := hr
      have hlonger : BinaryReader.readAll w.out (fields.map Field.kind) =
          .ok (fields', rest ++ more) := by
        refine BinaryReader.readAll_eq_ok.mpr ⟨?_, hfits', hkinds⟩
        rw [← hmore, hr', List.append_assoc]
      have hwhole : BinaryReader.readAll w.out (fields.map Field.kind) = .ok (fields, []) :=
        BinaryReader.readAll_eq_ok.mpr ⟨by rw [hout, List.append_nil], hfits, rfl⟩
      have hrest := (Prod.mk.inj (Except.ok.inj (hlonger.symm.trans hwhole))).2
      obtain ⟨-, rfl⟩ := List.append_eq_nil_iff.mp hrest
      rw [List.append_nil] at hmore
      exact absurd hmore hne

/-- A negative number, an empty string and two bytes in eight bytes. -/
theorem codec_round_trip_mixed :
    BinaryReader.readAll [255, 254, 0, 0, 0, 2, 7, 8] [.i16, .string, .sizedBytes] =
        .ok ([.i16 (-2), .string [], .sizedBytes [7, 8]], []) ∧
      ∃ e, BinaryReader.readAll [255, 254, 0, 0, 0, 2, 7] [.i16, .string, .sizedBytes] =
        .error e := by
  have h := codec_round_trip [.i16 (-2), .string [], .sizedBytes [7, 8]] 8
    ⟨8, [255, 254, 0, 0, 0, 2, 7, 8]⟩ (by decide)
  exact ⟨h.1, h.2 _ (by decide) (by decide)⟩

end SecureCnet
