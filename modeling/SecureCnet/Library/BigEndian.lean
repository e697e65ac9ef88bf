import Mathlib.Tactic

/-!
# Big-endian byte strings

Numbers are written as a fixed count of base-256 digits, most significant digit
first. Writing keeps the number modulo `256 ^ k`; reading back any `k` bytes and
writing them again gives the same bytes, so the two directions are inverse on
the numbers that fit.
-/

namespace BigEndian

/-- The `k` low base-256 digits of `n`, most significant first. -/
def toBE : ℕ → ℕ → List UInt8
  | 0, _ => []
  | k + 1, n => UInt8.ofNat (n / 256 ^ k) :: toBE k n

/-- The number whose base-256 digits are `bs`, most significant first. -/
def ofBE (bs : List UInt8) : ℕ :=
  bs.foldl (fun acc b => acc * 256 + b.toNat) 0

@[simp] theorem length_toBE (k n : ℕ) : (toBE k n).length = k := by
  induction k with
  | zero => rfl
  | succ k ih => simp [toBE, ih]

theorem foldl_digits (bs : List UInt8) (acc : ℕ) :
    bs.foldl (fun acc b => acc * 256 + b.toNat) acc = acc * 256 ^ bs.length + ofBE bs := by
  induction bs generalizing acc with
  | nil => simp [ofBE]
  | cons b bs ih =>
    have h0 : ofBE (b :: bs) = (0 * 256 + b.toNat) * 256 ^ bs.length + ofBE bs := ih _
    rw [List.foldl_cons, ih, h0, List.length_cons, pow_succ]
    ring

theorem ofBE_cons (b : UInt8) (bs : List UInt8) :
    ofBE (b :: bs) = b.toNat * 256 ^ bs.length + ofBE bs := by
  have h := foldl_digits bs (0 * 256 + b.toNat)
  simpa [ofBE] using h

theorem ofBE_lt (bs : List UInt8) : ofBE bs < 256 ^ bs.length := by
  induction bs with
  | nil => simp [ofBE]
  | cons b bs ih =>
    have hb : b.toNat + 1 ≤ 256 := b.toNat_lt
    rw [ofBE_cons, List.length_cons, pow_succ]
    nlinarith [Nat.mul_le_mul_right (256 ^ bs.length) hb]

theorem ofBE_toBE (k n : ℕ) : ofBE (toBE k n) = n % 256 ^ k := by
  induction k with
  | zero => simp [toBE, ofBE, Nat.mod_one]
  | succ k ih =>
    have hdigit : (UInt8.ofNat (n / 256 ^ k)).toNat = n / 256 ^ k % 256 := UInt8.toNat_ofNat'
    rw [toBE, ofBE_cons, length_toBE, ih, hdigit, pow_succ, Nat.mod_mul]
    ring

theorem ofBE_toBE_of_lt {k n : ℕ} (h : n < 256 ^ k) : ofBE (toBE k n) = n := by
  rw [ofBE_toBE, Nat.mod_eq_of_lt h]

/-- Only the digits below `256 ^ k` matter. -/
theorem toBE_add_mul (k m c : ℕ) : toBE k (c * 256 ^ k + m) = toBE k m := by
  induction k generalizing c with
  | zero => rfl
  | succ k ih =>
    have hsplit : c * 256 ^ (k + 1) + m = (c * 256) * 256 ^ k + m := by ring
    have hdiv : ((c * 256) * 256 ^ k + m) / 256 ^ k = c * 256 + m / 256 ^ k := by
      rw [Nat.add_comm, Nat.add_mul_div_right _ _ (by positivity), Nat.add_comm]
    rw [toBE, toBE, hsplit, ih, hdiv]
    congr 1
    apply UInt8.toNat_inj.mp
    simp [UInt8.toNat_ofNat']

theorem toBE_ofBE (bs : List UInt8) : toBE bs.length (ofBE bs) = bs := by
  induction bs with
  | nil => rfl
  | cons b bs ih =>
    have hlt := ofBE_lt bs
    have hdiv : (b.toNat * 256 ^ bs.length + ofBE bs) / 256 ^ bs.length = b.toNat := by
      rw [Nat.add_comm, Nat.add_mul_div_right _ _ (by positivity), Nat.div_eq_of_lt hlt]
      omega
    rw [ofBE_cons, List.length_cons, toBE, hdiv, toBE_add_mul, ih, UInt8.ofNat_toNat]

theorem toBE_inj {k m n : ℕ} (hm : m < 256 ^ k) (hn : n < 256 ^ k)
    (h : toBE k m = toBE k n) : m = n := by
  rw [← ofBE_toBE_of_lt hm, ← ofBE_toBE_of_lt hn, h]

end BigEndian
