import SecureCnet.Library.BigEndian
import SecureCnet.Wire.Config

/-!
# Byte writers and readers

A writer is its capacity and the bytes written so far, a reader is the bytes
still unread. Writers compose: writing two strings in turn is writing their
concatenation, with the same error when they do not fit, so each composite
writer of the library is one `writeBytes` of its encoding.
-/

namespace SecureCnet

open BigEndian

def be16 (v : UInt16) : Bytes := toBE 2 v.toNat
def be32 (v : UInt32) : Bytes := toBE 4 v.toNat
def be64 (v : UInt64) : Bytes := toBE 8 v.toNat

@[simp] theorem length_be16 (v : UInt16) : (be16 v).length = 2 := length_toBE 2 _
@[simp] theorem length_be32 (v : UInt32) : (be32 v).length = 4 := length_toBE 4 _
@[simp] theorem length_be64 (v : UInt64) : (be64 v).length = 8 := length_toBE 8 _

theorem be64_inj {v w : UInt64} (h : be64 v = be64 w) : v = w :=
  UInt64.toNat_inj.mp (toBE_inj v.toNat_lt w.toNat_lt h)

structure ByteWriter where
  cap : ℕ
  out : Bytes := []
  deriving DecidableEq, Repr

namespace ByteWriter

def remaining (w : ByteWriter) : ℕ := w.cap - w.out.length

def writeBytes (w : ByteWriter) (p : Bytes) : Result ByteWriter :=
  if p.length ≤ w.remaining then .ok { w with out := w.out ++ p }
  else fail .truncated "ByteWriter overflow"

def writeU8 (w : ByteWriter) (v : UInt8) : Result ByteWriter := w.writeBytes [v]
def writeU16 (w : ByteWriter) (v : UInt16) : Result ByteWriter := w.writeBytes (be16 v)
def writeU32 (w : ByteWriter) (v : UInt32) : Result ByteWriter := w.writeBytes (be32 v)
def writeU64 (w : ByteWriter) (v : UInt64) : Result ByteWriter := w.writeBytes (be64 v)

theorem writeBytes_nil (w : ByteWriter) : w.writeBytes [] = .ok w := by
  simp [writeBytes]

theorem writeBytes_bind (w : ByteWriter) (p q : Bytes) :
    (w.writeBytes p >>= fun w' => w'.writeBytes q) = w.writeBytes (p ++ q) := by
  unfold writeBytes remaining
  by_cases hp : p.length ≤ w.cap - w.out.length
  · simp only [hp, if_true, Result.ok_bind, List.length_append, List.append_assoc]
    by_cases hq : q.length ≤ w.cap - (w.out.length + p.length)
    · rw [if_pos hq, if_pos (by omega)]
    · rw [if_neg hq, if_neg (by omega)]
  · simp only [hp, if_false, Result.fail_bind, List.length_append]
    rw [if_neg (by omega)]

theorem writeBytes_bind_bind {α : Type} (w : ByteWriter) (p q : Bytes)
    (k : ByteWriter → Result α) :
    (w.writeBytes p >>= fun w' => w'.writeBytes q >>= k) = (w.writeBytes (p ++ q) >>= k) := by
  rw [← writeBytes_bind]
  cases w.writeBytes p <;> rfl

theorem writeBytes_of_le {w : ByteWriter} {p : Bytes} (h : w.out.length + p.length ≤ w.cap) :
    w.writeBytes p = .ok { w with out := w.out ++ p } := by
  rw [writeBytes, if_pos]
  unfold remaining
  omega

theorem writeBytes_fresh (cap : ℕ) (p : Bytes) :
    (⟨cap, []⟩ : ByteWriter).writeBytes p =
      if p.length ≤ cap then .ok ⟨cap, p⟩ else fail .truncated "ByteWriter overflow" := by
  simp [writeBytes, remaining]

end ByteWriter

namespace ByteReader

def readBytes (n : ℕ) (r : Bytes) : Result (Bytes × Bytes) :=
  if n ≤ r.length then .ok (r.take n, r.drop n) else fail .truncated "ByteReader underrun"

/-- An unsigned word of `k` bytes in network order. -/
def readWord (k : ℕ) (r : Bytes) : Result (ℕ × Bytes) := do
  let (bs, r) ← readBytes k r
  return (ofBE bs, r)

def readU8 (r : Bytes) : Result (UInt8 × Bytes) := do
  let (n, r) ← readWord 1 r
  return (UInt8.ofNat n, r)

def readU16 (r : Bytes) : Result (UInt16 × Bytes) := do
  let (n, r) ← readWord 2 r
  return (UInt16.ofNat n, r)

def readU32 (r : Bytes) : Result (UInt32 × Bytes) := do
  let (n, r) ← readWord 4 r
  return (UInt32.ofNat n, r)

def readU64 (r : Bytes) : Result (UInt64 × Bytes) := do
  let (n, r) ← readWord 8 r
  return (UInt64.ofNat n, r)

variable {n : ℕ} {r rest : Bytes}

theorem readBytes_eq_ok {bs : Bytes} :
    readBytes n r = .ok (bs, rest) ↔ r = bs ++ rest ∧ bs.length = n := by
  unfold readBytes
  constructor
  · intro h
    split_ifs at h with hn
    · obtain ⟨rfl, rfl⟩ : r.take n = bs ∧ r.drop n = rest := by simpa using h
      simp [hn]
    · simp at h
  · rintro ⟨rfl, rfl⟩
    simp

theorem readBytes_append {bs : Bytes} (h : bs.length = n) (rest : Bytes) :
    readBytes n (bs ++ rest) = .ok (bs, rest) :=
  readBytes_eq_ok.mpr ⟨rfl, h⟩

theorem readBytes_self (bs : Bytes) : readBytes bs.length bs = .ok (bs, []) := by
  have h := readBytes_append (n := bs.length) rfl []
  rwa [List.append_nil] at h

theorem readWord_eq_ok {k : ℕ} :
    readWord k r = .ok (n, rest) ↔ n < 256 ^ k ∧ r = toBE k n ++ rest := by
  unfold readWord
  rw [Result.bind_eq_ok]
  constructor
  · rintro ⟨⟨bs, rest'⟩, hb, hv⟩
    obtain ⟨rfl, rfl⟩ := readBytes_eq_ok.mp hb
    simp only [Result.pure_eq, Except.ok.injEq, Prod.mk.injEq] at hv
    obtain ⟨rfl, rfl⟩ := hv
    exact ⟨ofBE_lt bs, by rw [toBE_ofBE]⟩
  · rintro ⟨hn, rfl⟩
    refine ⟨(toBE k n, rest), readBytes_append (length_toBE k n) rest, ?_⟩
    simp [ofBE_toBE_of_lt hn]

/-- A reader of a machine word takes exactly the word's encoding. -/
theorem readWord_map_eq_ok {k : ℕ} {α : Type} {ofN : ℕ → α} {toN : α → ℕ}
    (hlt : ∀ v, toN v < 256 ^ k) (hof : ∀ v, ofN (toN v) = v) (hto : ∀ n < 256 ^ k, toN (ofN n) = n)
    {v : α} :
    (readWord k r >>= fun p => (pure (ofN p.1, p.2) : Result (α × Bytes))) = .ok (v, rest) ↔
      r = toBE k (toN v) ++ rest := by
  rw [Result.bind_eq_ok]
  constructor
  · rintro ⟨⟨n, rest'⟩, hw, hv⟩
    obtain ⟨hn, rfl⟩ := readWord_eq_ok.mp hw
    simp only [Result.pure_eq, Except.ok.injEq, Prod.mk.injEq] at hv
    obtain ⟨rfl, rfl⟩ := hv
    rw [hto n hn]
  · rintro rfl
    refine ⟨(toN v, rest), readWord_eq_ok.mpr ⟨hlt v, rfl⟩, ?_⟩
    simp [hof]

theorem readU8_eq_ok {v : UInt8} : readU8 r = .ok (v, rest) ↔ r = v :: rest := by
  have hone : toBE 1 v.toNat = [v] := by simp [toBE]
  rw [← List.singleton_append, ← hone]
  exact readWord_map_eq_ok UInt8.toNat_lt (by simp) fun n hn => Nat.mod_eq_of_lt hn

theorem readU16_eq_ok {v : UInt16} : readU16 r = .ok (v, rest) ↔ r = be16 v ++ rest :=
  readWord_map_eq_ok UInt16.toNat_lt (by simp) fun n hn => Nat.mod_eq_of_lt hn

theorem readU32_eq_ok {v : UInt32} : readU32 r = .ok (v, rest) ↔ r = be32 v ++ rest :=
  readWord_map_eq_ok UInt32.toNat_lt (by simp) fun n hn => Nat.mod_eq_of_lt hn

theorem readU64_eq_ok {v : UInt64} : readU64 r = .ok (v, rest) ↔ r = be64 v ++ rest :=
  readWord_map_eq_ok UInt64.toNat_lt (by simp) fun n hn => Nat.mod_eq_of_lt hn

@[simp] theorem readU8_cons (v : UInt8) (rest : Bytes) : readU8 (v :: rest) = .ok (v, rest) :=
  readU8_eq_ok.mpr rfl

@[simp] theorem readU16_append (v : UInt16) (rest : Bytes) :
    readU16 (be16 v ++ rest) = .ok (v, rest) :=
  readU16_eq_ok.mpr rfl

@[simp] theorem readU32_append (v : UInt32) (rest : Bytes) :
    readU32 (be32 v ++ rest) = .ok (v, rest) :=
  readU32_eq_ok.mpr rfl

@[simp] theorem readU64_append (v : UInt64) (rest : Bytes) :
    readU64 (be64 v ++ rest) = .ok (v, rest) :=
  readU64_eq_ok.mpr rfl

end ByteReader

end SecureCnet
