import Mathlib.Tactic

/-!
# Self-delimiting frames

A reader takes one frame off the front of a string. If it accepts exactly the encodings of
valid frames, whatever follows them, then reading until it fails splits a string in the only
possible way: no concatenation of valid frames at its front is longer than what was read.
-/

namespace Framing

variable {α β ε : Type}

/-- Read frames until the reader fails, with the rest of the string and the error; `none` if the
fuel runs out first. -/
def readAll (read : List β → Except ε (α × List β)) : ℕ → List β → Option (List α × List β × ε)
  | 0, _ => none
  | fuel + 1, r =>
    match read r with
    | .error e => some ([], r, e)
    | .ok (a, r) => (readAll read fuel r).map fun (as, rest, e) => (a :: as, rest, e)

/-- The reader takes exactly the encodings of valid frames, and none of them is empty. -/
structure Reads (encode : α → List β) (Valid : α → Prop)
    (read : List β → Except ε (α × List β)) : Prop where
  read_eq_ok : ∀ r a rest, read r = .ok (a, rest) ↔ r = encode a ++ rest ∧ Valid a
  encode_ne_nil : ∀ a, encode a ≠ []

namespace Reads

variable {encode : α → List β} {Valid : α → Prop} {read : List β → Except ε (α × List β)}
  {as bs : List α} {r rest rest' : List β} {e : ε} {fuel : ℕ}

theorem read_encode (h : Reads encode Valid read) {a : α} (ha : Valid a) (rest : List β) :
    read (encode a ++ rest) = .ok (a, rest) :=
  (h.read_eq_ok _ a rest).mpr ⟨rfl, ha⟩

theorem length_le_flatMap (h : Reads encode Valid read) (as : List α) :
    as.length ≤ (as.flatMap encode).length := by
  induction as with
  | nil => exact le_rfl
  | cons a as ih =>
    have hpos := List.length_pos_iff.mpr (h.encode_ne_nil a)
    rw [List.flatMap_cons, List.length_append, List.length_cons]
    omega

theorem readAll_flatMap (h : Reads encode Valid read) (has : ∀ a ∈ as, Valid a)
    (hstop : read rest = .error e) (hfuel : as.length < fuel) :
    readAll read fuel (as.flatMap encode ++ rest) = some (as, rest, e) := by
  induction as generalizing fuel with
  | nil =>
    obtain ⟨fuel, rfl⟩ := Nat.exists_eq_succ_of_ne_zero (Nat.ne_of_gt hfuel)
    simp [readAll, hstop]
  | cons a as ih =>
    rw [List.forall_mem_cons] at has
    obtain ⟨fuel, rfl⟩ := Nat.exists_eq_succ_of_ne_zero (Nat.ne_of_gt (Nat.zero_lt_of_lt hfuel))
    rw [List.flatMap_cons, List.append_assoc, readAll, h.read_encode has.1]
    simp only
    rw [ih has.2 (Nat.lt_of_succ_lt_succ hfuel)]
    rfl

/-- Every string is split into frames and a rest the reader refuses. -/
theorem exists_split (h : Reads encode Valid read) (r : List β) :
    ∃ (as : List α) (rest : List β) (e : ε), r = as.flatMap encode ++ rest ∧
      (∀ a ∈ as, Valid a) ∧ read rest = .error e := by
  -- A frame is not empty, so the rest behind it is shorter.
  induction hn : r.length using Nat.strong_induction_on generalizing r with
  | _ n ih =>
    cases hread : read r with
    | error e => exact ⟨[], r, e, rfl, by simp, hread⟩
    | ok ar =>
      obtain ⟨a, r'⟩ := ar
      obtain ⟨rfl, ha⟩ := (h.read_eq_ok r a r').mp hread
      have hpos := List.length_pos_iff.mpr (h.encode_ne_nil a)
      rw [List.length_append] at hn
      obtain ⟨as, rest, e, rfl, has, hstop⟩ := ih r'.length (by omega) r' rfl
      refine ⟨a :: as, rest, e, ?_, List.forall_mem_cons.mpr ⟨ha, has⟩, hstop⟩
      rw [List.flatMap_cons, List.append_assoc]

/-- Frames at the front of a string are among those in front of a refused rest, in order. -/
theorem isPrefix_of_stop (h : Reads encode Valid read) (has : ∀ a ∈ as, Valid a)
    (hbs : ∀ b ∈ bs, Valid b) (hstop : read rest = .error e)
    (heq : bs.flatMap encode ++ rest' = as.flatMap encode ++ rest) : bs <+: as := by
  induction bs generalizing as with
  | nil => exact List.nil_prefix
  | cons b bs ih =>
    rw [List.forall_mem_cons] at hbs
    rw [List.flatMap_cons, List.append_assoc] at heq
    have hread := h.read_encode hbs.1 (bs.flatMap encode ++ rest')
    cases as with
    | nil =>
      rw [heq, List.flatMap_nil, List.nil_append, hstop] at hread
      cases hread
    | cons a as =>
      rw [List.forall_mem_cons] at has
      rw [heq, List.flatMap_cons, List.append_assoc, h.read_encode has.1] at hread
      obtain ⟨rfl, htail⟩ := Prod.mk.inj (Except.ok.inj hread)
      exact List.cons_prefix_cons.mpr ⟨rfl, ih has.2 hbs.2 htail.symm⟩

end Reads

end Framing
