import Mathlib.Tactic
import Mathlib.Data.Set.Insert

/-!
# Sliding acceptance windows

A window remembers the largest number accepted so far and one bit for each of
the `w` numbers ending there. `Holds` relates it to the set of all numbers ever
accepted: inside the window the bits decide membership, below it the window has
forgotten and refuses.
-/

namespace SlidingWindow

structure Window (w : ℕ) where
  started : Bool
  latest : ℕ
  seen : BitVec w

variable {w : ℕ}

/-- Move the bits up by `delta` and mark the new latest number. -/
def slide (delta : ℕ) (seen : BitVec w) : BitVec w :=
  (if w ≤ delta then 0#w else seen <<< delta) ||| 1#w

/-- Accept a number once: fresh numbers slide the window, old ones set their bit. -/
def accept (s : ℕ) (win : Window w) : Bool × Window w :=
  if win.started = false then (true, ⟨true, s, 1#w⟩)
  else if win.latest < s then (true, ⟨true, s, slide (s - win.latest) win.seen⟩)
  else if w ≤ win.latest - s then (false, win)
  else (!win.seen.getLsbD (win.latest - s),
    { win with seen := win.seen ||| 1#w <<< (win.latest - s) })

/-- The window represents the set `S` of numbers accepted so far. -/
structure Holds (win : Window w) (S : Set ℕ) : Prop where
  empty : win.started = false → S = ∅
  latest_mem : win.started = true → win.latest ∈ S
  le_latest : ∀ s ∈ S, s ≤ win.latest
  bit : win.started = true → ∀ d < w, d ≤ win.latest →
    (win.seen.getLsbD d = true ↔ win.latest - d ∈ S)

theorem holds_empty (latest : ℕ) (seen : BitVec w) : Holds ⟨false, latest, seen⟩ ∅ where
  empty := fun _ => rfl
  latest_mem := by simp
  le_latest := by simp
  bit := by simp

theorem getLsbD_one_iff (d : ℕ) : (1#w).getLsbD d = true ↔ d = 0 ∧ 0 < w := by
  rw [BitVec.getLsbD_one]
  simp
  omega

theorem getLsbD_slide (delta d : ℕ) (seen : BitVec w) :
    (slide delta seen).getLsbD d = true ↔
      d < w ∧ (d = 0 ∨ delta ≤ d ∧ seen.getLsbD (d - delta) = true) := by
  unfold slide
  rw [BitVec.getLsbD_or, Bool.or_eq_true, getLsbD_one_iff]
  split_ifs with h
  · simp
    omega
  · rw [BitVec.getLsbD_shiftLeft]
    simp only [Bool.and_eq_true, decide_eq_true_eq, Bool.not_eq_true', decide_eq_false_iff_not,
      Nat.not_lt]
    by_cases hd : d = 0
    · subst hd
      simp
      tauto
    · simp only [hd, false_and, or_false, false_or, and_assoc]

variable {win : Window w} {S : Set ℕ}

theorem accept_fst_iff (h : Holds win S) (s : ℕ) :
    (accept s win).1 = true ↔ s ∉ S ∧ (win.started = true → win.latest < s + w) := by
  unfold accept
  split_ifs with hs hl hw
  · simp [h.empty hs, hs]
  · have hnot : s ∉ S := fun hm => by have := h.le_latest s hm; omega
    simp [hnot]
    omega
  · simp only [false_iff, not_and, Classical.not_imp]
    intro _
    exact ⟨by simpa using hs, by omega⟩
  · have hb := h.bit (by simpa using hs) (win.latest - s) (by omega) (by omega)
    rw [Nat.sub_sub_self (by omega)] at hb
    rw [← hb]
    simp
    omega

theorem accept_started (s : ℕ) (win : Window w) : (accept s win).2.started = true := by
  unfold accept
  split_ifs with hs hl hw
  · rfl
  · rfl
  · simpa using hs
  · simpa using hs

theorem holds_insert_fresh (h : Holds win S) (hs : win.started = true) {s : ℕ}
    (hl : win.latest < s) :
    Holds ⟨true, s, slide (s - win.latest) win.seen⟩ (insert s S) where
  empty := by simp
  latest_mem := by simp
  le_latest := by
    intro t ht
    rcases ht with rfl | ht
    · exact le_rfl
    · exact (h.le_latest t ht).trans hl.le
  bit := by
    intro _ d hd hds
    simp only at hd hds ⊢
    rw [getLsbD_slide, Set.mem_insert_iff]
    by_cases hd0 : d = 0
    · simp [hd0] at hd ⊢
      exact hd
    · have hne : s - d ≠ s := by omega
      simp only [hd, hd0, hne, true_and, false_or]
      -- Numbers above the old maximum are not members; the others keep their shifted bit.
      by_cases hnew : win.latest < s - d
      · have hnot : s - d ∉ S := fun hm => by have := h.le_latest _ hm; omega
        simp only [hnot, iff_false, not_and]
        omega
      · have hb := h.bit hs (d - (s - win.latest)) (by omega) (by omega)
        rw [show win.latest - (d - (s - win.latest)) = s - d by omega] at hb
        rw [← hb, and_iff_right (by omega)]

theorem holds_insert_old (h : Holds win S) (hs : win.started = true) {s : ℕ}
    (hl : s ≤ win.latest) (hw : win.latest - s < w) :
    Holds { win with seen := win.seen ||| 1#w <<< (win.latest - s) } (insert s S) where
  empty := by simp [hs]
  latest_mem := fun _ => Set.mem_insert_of_mem _ (h.latest_mem hs)
  le_latest := by
    intro t ht
    rcases ht with rfl | ht
    · exact hl
    · exact h.le_latest t ht
  bit := by
    intro _ d hd hds
    simp only at hd hds ⊢
    rw [BitVec.getLsbD_or, Bool.or_eq_true, h.bit hs d hd hds, Set.mem_insert_iff,
      BitVec.getLsbD_shiftLeft]
    have hone := getLsbD_one_iff (w := w) (d - (win.latest - s))
    constructor
    · rintro (hm | hb)
      · exact Or.inr hm
      · simp only [Bool.and_eq_true, decide_eq_true_eq, Bool.not_eq_true', decide_eq_false_iff_not,
          hone] at hb
        left
        omega
    · rintro (he | hm)
      · right
        simp only [Bool.and_eq_true, decide_eq_true_eq, Bool.not_eq_true', decide_eq_false_iff_not,
          hone]
        omega
      · exact Or.inl hm

/-- After a call the window holds the old set, with the number added when it was accepted. -/
theorem holds_accept (h : Holds win S) (hw : 0 < w) (s : ℕ) :
    Holds (accept s win).2 (if (accept s win).1 = true then insert s S else S) := by
  by_cases hs : win.started = false
  · have he : accept s win = (true, ⟨true, s, 1#w⟩) := if_pos hs
    simp only [he, if_true, h.empty hs]
    refine ⟨by simp, by simp, by simp, ?_⟩
    intro _ d hd hds
    simp only at hd hds ⊢
    rw [getLsbD_one_iff]
    simp
    omega
  have hstarted : win.started = true := by simpa using hs
  by_cases hl : win.latest < s
  · simpa [accept, hstarted, hl] using holds_insert_fresh h hstarted hl
  by_cases hold : w ≤ win.latest - s
  · simpa [accept, hstarted, hl, hold] using h
  have hins := holds_insert_old h hstarted (s := s) (by omega) (by omega)
  have he : (accept s win).2 = { win with seen := win.seen ||| 1#w <<< (win.latest - s) } := by
    simp [accept, hstarted, hl, hold]
  rw [he]
  split_ifs with hnew
  · exact hins
  · -- The bit was already set, so nothing is added.
    have hmem : s ∈ S := by
      by_contra hm
      exact hnew ((accept_fst_iff h s).mpr ⟨hm, fun _ => by omega⟩)
    rwa [Set.insert_eq_of_mem hmem] at hins

section Sequences

variable {α W : Type*} (f : α → W → Bool × W)

def after (l : List α) (win : W) : W := l.foldl (fun win s => (f s win).2) win

/-- The numbers a sequence of calls accepts, in order. -/
def taken : List α → W → List α
  | [], _ => []
  | s :: l, win => if (f s win).1 then s :: taken l (f s win).2 else taken l (f s win).2

@[simp] theorem after_nil (win : W) : after f [] win = win := rfl

theorem after_cons (s : α) (l : List α) (win : W) :
    after f (s :: l) win = after f l (f s win).2 := rfl

@[simp] theorem taken_nil (win : W) : taken f [] win = [] := rfl

theorem taken_cons (s : α) (l : List α) (win : W) :
    taken f (s :: l) win =
      if (f s win).1 then s :: taken f l (f s win).2 else taken f l (f s win).2 := rfl

end Sequences

end SlidingWindow
