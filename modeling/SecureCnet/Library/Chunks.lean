import Mathlib.Tactic

/-!
# Cutting a list into pieces and pasting them back

`chunk k i l` is the `i`-th piece of length `k`; `paste off d l` overwrites `l`
with `d` from position `off` on. Pasting a piece changes that piece alone, and two
lists of one length with the same pieces are equal.
-/

namespace Chunks

variable {α : Type*}

def chunk (k i : ℕ) (l : List α) : List α := (l.drop (i * k)).take k

def paste (off : ℕ) (d l : List α) : List α := l.take off ++ (d ++ l.drop (off + d.length))

theorem length_chunk (k i : ℕ) (l : List α) :
    (chunk k i l).length = min k (l.length - i * k) := by
  simp [chunk]

theorem length_paste {off : ℕ} {d l : List α} (h : off + d.length ≤ l.length) :
    (paste off d l).length = l.length := by
  simp [paste]
  omega

theorem getElem?_chunk (k i j : ℕ) (l : List α) :
    (chunk k i l)[j]? = if j < k then l[i * k + j]? else none := by
  simp [chunk, List.getElem?_take]

theorem getElem?_paste {off : ℕ} {d l : List α} (h : off + d.length ≤ l.length) (j : ℕ) :
    (paste off d l)[j]? = if off ≤ j ∧ j < off + d.length then d[j - off]? else l[j]? := by
  have hoff : (l.take off).length = off := by
    rw [List.length_take]
    omega
  unfold paste
  by_cases hlt : j < off
  · rw [List.getElem?_append_left (by omega), if_neg (by omega), List.getElem?_take_of_lt hlt]
  · rw [List.getElem?_append_right (by omega), hoff]
    by_cases hin : j < off + d.length
    · rw [List.getElem?_append_left (by omega), if_pos (by omega)]
    · rw [List.getElem?_append_right (by omega), if_neg (by omega), List.getElem?_drop]
      congr 1
      omega

theorem chunk_paste_self {k i : ℕ} {d l : List α} (h : i * k + d.length ≤ l.length)
    (hd : d.length = min k (l.length - i * k)) : chunk k i (paste (i * k) d l) = d := by
  apply List.ext_getElem?
  intro j
  rw [getElem?_chunk, getElem?_paste h]
  by_cases hj : j < d.length
  · rw [if_pos (by omega), if_pos (by omega), Nat.add_sub_cancel_left]
  · have hnone : d[j]? = none := List.getElem?_eq_none (by omega)
    rw [hnone]
    by_cases hjk : j < k
    · rw [if_pos hjk, if_neg (by omega)]
      exact List.getElem?_eq_none (by omega)
    · rw [if_neg hjk]

theorem chunk_paste_of_ne {k i j : ℕ} {d l : List α} (h : i * k + d.length ≤ l.length)
    (hd : d.length ≤ k) (hne : i ≠ j) : chunk k j (paste (i * k) d l) = chunk k j l := by
  apply List.ext_getElem?
  intro m
  rw [getElem?_chunk, getElem?_chunk, getElem?_paste h]
  split_ifs with hm hin
  · -- The position lies in piece `j`, so it cannot lie in piece `i`.
    exfalso
    rcases Nat.lt_or_gt_of_ne hne with hlt | hgt
    · have : (i + 1) * k ≤ j * k := Nat.mul_le_mul_right k hlt
      rw [Nat.succ_mul] at this
      omega
    · have : (j + 1) * k ≤ i * k := Nat.mul_le_mul_right k hgt
      rw [Nat.succ_mul] at this
      omega
  · rfl
  · rfl

theorem eq_of_chunks {k : ℕ} (hk : 0 < k) {l l' : List α} (hlen : l.length = l'.length)
    (h : ∀ i, i * k < l.length → chunk k i l = chunk k i l') : l = l' := by
  apply List.ext_getElem?
  intro j
  by_cases hj : j < l.length
  · have hdiv : j / k * k ≤ j := Nat.div_mul_le_self j k
    have hpiece := congrArg (fun p => p[j % k]?) (h (j / k) (by omega))
    simp only [getElem?_chunk, Nat.mod_lt j hk, if_true] at hpiece
    rwa [Nat.div_add_mod' j k] at hpiece
  · rw [List.getElem?_eq_none (by omega), List.getElem?_eq_none (by omega)]

end Chunks
