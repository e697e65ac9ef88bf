import Mathlib.Tactic

/-!
# Runs of a step function

Code that makes step after step leads from one state to another; what kind of steps it
makes composes along the run.
-/

variable {σ α : Type*} {step : σ → α → σ} {P : α → Prop} {s s' s'' : σ}

/-- Steps of the given kind lead from one state to the other. -/
def Leads (step : σ → α → σ) (P : α → Prop) (s s' : σ) : Prop :=
  ∃ l : List α, s' = l.foldl step s ∧ ∀ a ∈ l, P a

namespace Leads

theorem refl (step : σ → α → σ) (P : α → Prop) (s : σ) : Leads step P s s :=
  ⟨[], rfl, by simp⟩

theorem single {a : α} (ha : P a) (s : σ) : Leads step P s (step s a) :=
  ⟨[a], rfl, List.forall_mem_singleton.mpr ha⟩

theorem trans (h : Leads step P s s') (h' : Leads step P s' s'') : Leads step P s s'' := by
  obtain ⟨l, rfl, hl⟩ := h
  obtain ⟨l', rfl, hl'⟩ := h'
  exact ⟨l ++ l', (List.foldl_append ..).symm, List.forall_mem_append.mpr ⟨hl, hl'⟩⟩

theorem invariant (h : Leads step P s s') {I : σ → Prop} (hI : ∀ s a, I s → I (step s a))
    (hs : I s) : I s' := by
  obtain ⟨l, rfl, -⟩ := h
  induction l generalizing s with
  | nil => exact hs
  | cons a l ih => exact ih (hI s a hs)

end Leads
