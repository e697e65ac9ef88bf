import Mathlib.Data.List.AList
import Mathlib.Tactic

/-!
# Sums over a table

Every value of a table has a weight. The total changes with an update of one key as
one expects, and is no larger than that of a table whose values weigh at least as
much, key by key.
-/

namespace SecureCnet.TableSum

variable {κ α : Type}

/-- The weight of all values of a table. -/
def total (w : α → ℕ) (table : AList fun _ : κ => α) : ℕ := (table.entries.map fun e => w e.2).sum

variable {w : α → ℕ} {table table' : AList fun _ : κ => α} {k : κ} {a : α}

@[simp]
theorem total_empty (w : α → ℕ) : total w (∅ : AList fun _ : κ => α) = 0 := rfl

theorem total_one (table : AList fun _ : κ => α) : total (fun _ => 1) table = table.entries.length := by
  simp [total]

theorem total_le_length_mul {bound : ℕ} (h : ∀ a, w a ≤ bound) :
    total w table ≤ table.entries.length * bound := by
  have hsum := List.sum_le_card_nsmul (table.entries.map fun e => w e.2) bound fun n hn => by
    obtain ⟨e, -, rfl⟩ := List.mem_map.mp hn
    exact h e.2
  simpa [total] using hsum

variable [DecidableEq κ]

theorem total_insert (w : α → ℕ) (table : AList fun _ : κ => α) (k : κ) (a : α) :
    total w (table.insert k a) = total w (table.erase k) + w a := by
  unfold total
  rw [AList.entries_insert, List.map_cons, List.sum_cons, Nat.add_comm]
  rfl

theorem total_eq_erase_add (h : table.lookup k = some a) :
    total w table = total w (table.erase k) + w a := by
  have hmem : k ∈ table.entries.keys := AList.lookup_isSome.mp (by rw [h]; rfl)
  have hentry : (⟨k, a⟩ : (_ : κ) × α) ∈ table.entries := AList.mem_lookup_iff.mp h
  obtain ⟨c, l₁, l₂, hl₁, hentries, herase⟩ := List.exists_of_kerase hmem
  have hc : c = a := by
    have hcmem : (⟨k, c⟩ : (_ : κ) × α) ∈ table.entries := by simp [hentries]
    exact table.nodupKeys.eq_of_mk_mem hcmem hentry
  have hrest : (table.erase k).entries = l₁ ++ l₂ := herase
  unfold total
  rw [hrest, hentries, hc]
  simp only [List.map_append, List.map_cons, List.sum_append, List.sum_cons]
  omega

theorem total_update {b : α} (h : table.lookup k = some a) (hw : w b = w a) :
    total w (table.insert k b) = total w table := by
  rw [total_insert, total_eq_erase_add h, hw]

theorem erase_of_lookup_none (h : table.lookup k = none) : table.erase k = table :=
  AList.ext (List.kerase_of_notMem_keys (AList.lookup_eq_none.mp h))

theorem total_erase_le (w : α → ℕ) (table : AList fun _ : κ => α) (k : κ) :
    total w (table.erase k) ≤ total w table :=
  ((List.kerase_sublist k table.entries).map _).sum_le_sum fun _ _ => Nat.zero_le _

/-- Values that weigh no more, key by key, have no larger total. -/
theorem total_le_of_lookup (h : ∀ k b, table'.lookup k = some b →
    w b = 0 ∨ ∃ a, table.lookup k = some a ∧ w b ≤ w a) : total w table' ≤ total w table := by
  induction table' using AList.insertRec generalizing table with
  | H0 => exact Nat.zero_le _
  | IH k b rest hk ih =>
    have hrest : rest.erase k = rest := erase_of_lookup_none (AList.lookup_eq_none.mpr hk)
    -- The other keys are compared with what is left of the table without `k`.
    have hother : total w rest ≤ total w (table.erase k) := by
      refine ih fun k' b' hb' => ?_
      have hne : k' ≠ k := by
        rintro rfl
        exact hk (AList.lookup_isSome.mp (by rw [hb']; rfl))
      have hb := h k' b' ((AList.lookup_insert_ne hne).trans hb')
      rwa [AList.lookup_erase_ne hne]
    rw [total_insert, hrest]
    rcases h k b (AList.lookup_insert rest) with hzero | ⟨a, ha, hle⟩
    · have hfewer := total_erase_le w table k
      omega
    · rw [total_eq_erase_add ha]
      exact Nat.add_le_add hother hle

end SecureCnet.TableSum
