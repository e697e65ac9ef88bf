import Mathlib.Data.List.AList
import Mathlib.Tactic

/-!
# Tables with a reverse index

A table stores values under their own keys; an index sends the address of each
value back to its key. The two are `Paired` when they are inverse to each other.
The rules below say which updates of both keep them so, and what the updates do
to the number of stored values with a given property.
-/

namespace SecureCnet.PairedIndex

variable {κ ε α : Type}

/-- The number of stored values with a property. -/
def tally (P : α → Bool) (table : AList fun _ : κ => α) : ℕ := table.entries.countP fun e => P e.2

variable {P : α → Bool} {table : AList fun _ : κ => α} {k : κ} {a b : α}

@[simp]
theorem tally_empty (P : α → Bool) : tally P (∅ : AList fun _ : κ => α) = 0 := rfl

theorem tally_true (table : AList fun _ : κ => α) :
    tally (fun _ => true) table = table.keys.length := by
  simp [tally, AList.keys, List.keys]

variable [DecidableEq κ] [DecidableEq ε]

theorem tally_eq_erase_add (h : table.lookup k = some a) :
    tally P table = tally P (table.erase k) + (if P a then 1 else 0) := by
  have hmem : k ∈ table.entries.keys := AList.lookup_isSome.mp (by rw [h]; rfl)
  have hentry : (⟨k, a⟩ : (_ : κ) × α) ∈ table.entries := AList.mem_lookup_iff.mp h
  obtain ⟨c, l₁, l₂, hl₁, hentries, herase⟩ := List.exists_of_kerase hmem
  have hc : c = a := by
    have hcmem : (⟨k, c⟩ : (_ : κ) × α) ∈ table.entries := by simp [hentries]
    exact table.nodupKeys.eq_of_mk_mem hcmem hentry
  have hrest : (table.erase k).entries = l₁ ++ l₂ := herase
  unfold tally
  rw [hrest, hentries, hc]
  simp only [List.countP_append, List.countP_cons]
  omega

theorem tally_insert (P : α → Bool) (table : AList fun _ : κ => α) (k : κ) (a : α) :
    tally P (table.insert k a) = tally P (table.erase k) + (if P a then 1 else 0) := by
  unfold tally
  rw [AList.entries_insert, List.countP_cons]
  rfl

theorem tally_update (h : table.lookup k = some a) (hP : P b = P a) :
    tally P (table.insert k b) = tally P table := by
  rw [tally_insert, tally_eq_erase_add h, hP]

theorem of_lookup_insert {k' : κ} (h : (table.insert k b).lookup k' = some a) :
    k' = k ∧ a = b ∨ k' ≠ k ∧ table.lookup k' = some a := by
  by_cases hk : k' = k
  · subst hk
    rw [AList.lookup_insert] at h
    exact Or.inl ⟨rfl, (Option.some.inj h).symm⟩
  · rw [AList.lookup_insert_ne hk] at h
    exact Or.inr ⟨hk, h⟩

theorem of_lookup_erase {k' : κ} (h : (table.erase k).lookup k' = some a) :
    k' ≠ k ∧ table.lookup k' = some a := by
  by_cases hk : k' = k
  · rw [hk, AList.lookup_erase] at h
    cases h
  · exact ⟨hk, (AList.lookup_erase_ne hk).symm.trans h⟩

theorem tally_le_of_lookup {table' : AList fun _ : κ => α}
    (h : ∀ k a, table'.lookup k = some a → table.lookup k = some a) (P : α → Bool) :
    tally P table' ≤ tally P table := by
  have hsub : table'.entries ⊆ table.entries := fun e he =>
    AList.mem_lookup_iff.mp (h e.1 e.2 (AList.mem_lookup_iff.mpr he))
  exact (List.subperm_of_subset table'.nodupKeys.nodup hsub).countP_le _

theorem length_keys_le_of_lookup {table' : AList fun _ : κ => α}
    (h : ∀ k a, table'.lookup k = some a → table.lookup k = some a) :
    table'.keys.length ≤ table.keys.length := by
  rw [← tally_true, ← tally_true]
  exact tally_le_of_lookup h _

theorem tally_insert_le (P : α → Bool) (table : AList fun _ : κ => α) (k : κ) (a : α) :
    tally P (table.insert k a) ≤ tally P table + (if P a then 1 else 0) := by
  rw [tally_insert]
  exact Nat.add_le_add_right (tally_le_of_lookup (fun _ _ h => (of_lookup_erase h).2) P) _

theorem length_keys_lt_of_lookup {table' : AList fun _ : κ => α}
    (h : ∀ k a, table'.lookup k = some a → table.lookup k = some a)
    (hold : table.lookup k = some a) (hgone : table'.lookup k = none) :
    table'.keys.length < table.keys.length := by
  have hrest : ∀ k' a', table'.lookup k' = some a' → (table.erase k).lookup k' = some a' := by
    intro k' a' hl
    rw [AList.lookup_erase_ne, h k' a' hl]
    rintro rfl
    cases hgone.symm.trans hl
  rw [← tally_true, ← tally_true, tally_eq_erase_add hold]
  exact Nat.lt_succ_of_le (tally_le_of_lookup hrest _)

/-- Table and index are inverse to each other. -/
structure Paired (key : α → κ) (addr : α → ε) (table : AList fun _ : κ => α)
    (index : AList fun _ : ε => κ) : Prop where
  own : ∀ {k a}, table.lookup k = some a → key a = k
  forward : ∀ {k a}, table.lookup k = some a → index.lookup (addr a) = some k
  backward : ∀ {e k}, index.lookup e = some k → ∃ a, table.lookup k = some a ∧ addr a = e

variable {key : α → κ} {addr : α → ε} {index : AList fun _ : ε => κ}

theorem paired_empty (key : α → κ) (addr : α → ε) : Paired key addr ∅ ∅ where
  own h := by simp at h
  forward h := by simp at h
  backward h := by simp at h

theorem Paired.key_unique (h : Paired key addr table index) {k₁ k₂ : κ} {a₁ a₂ : α}
    (h₁ : table.lookup k₁ = some a₁) (h₂ : table.lookup k₂ = some a₂) (he : addr a₁ = addr a₂) :
    k₁ = k₂ := by
  have hf := h.forward h₁
  rw [he, h.forward h₂] at hf
  exact (Option.some.inj hf).symm

theorem Paired.update (h : Paired key addr table index) (hk : table.lookup k = some a)
    (hkey : key b = key a) (haddr : addr b = addr a) :
    Paired key addr (table.insert k b) index where
  own hlook := by
    rcases of_lookup_insert hlook with ⟨rfl, rfl⟩ | ⟨-, hold⟩
    · exact hkey.trans (h.own hk)
    · exact h.own hold
  forward hlook := by
    rcases of_lookup_insert hlook with ⟨rfl, rfl⟩ | ⟨-, hold⟩
    · rw [haddr, h.forward hk]
    · exact h.forward hold
  backward := by
    intro e k' hlook
    obtain ⟨a', ha', he⟩ := h.backward hlook
    by_cases hkk : k' = k
    · subst hkk
      rw [hk] at ha'
      exact ⟨b, AList.lookup_insert _, by rw [haddr, Option.some.inj ha', he]⟩
    · exact ⟨a', by rw [AList.lookup_insert_ne hkk, ha'], he⟩

theorem Paired.remove (h : Paired key addr table index) (hk : table.lookup k = some a) :
    Paired key addr (table.erase k) (index.erase (addr a)) where
  own hlook := h.own (of_lookup_erase hlook).2
  forward hlook := by
    obtain ⟨hkk, hold⟩ := of_lookup_erase hlook
    rw [AList.lookup_erase_ne fun heq => hkk (h.key_unique hold hk heq)]
    exact h.forward hold
  backward := by
    intro e k' hlook
    obtain ⟨he, hold⟩ := of_lookup_erase hlook
    obtain ⟨a', ha', hae⟩ := h.backward hold
    have hkk : k' ≠ k := by
      rintro rfl
      rw [hk] at ha'
      exact he (by rw [← hae, Option.some.inj ha'])
    exact ⟨a', by rw [AList.lookup_erase_ne hkk, ha'], hae⟩

/-- A value with a fresh key and a fresh address is added. -/
theorem Paired.add (h : Paired key addr table index) (hk : table.lookup (key a) = none)
    (ha : index.lookup (addr a) = none) :
    Paired key addr (table.insert (key a) a) (index.insert (addr a) (key a)) where
  own hlook := by
    rcases of_lookup_insert hlook with ⟨rfl, rfl⟩ | ⟨-, hold⟩
    · rfl
    · exact h.own hold
  forward hlook := by
    rcases of_lookup_insert hlook with ⟨rfl, rfl⟩ | ⟨-, hold⟩
    · exact AList.lookup_insert _
    · have hf := h.forward hold
      rw [AList.lookup_insert_ne, hf]
      intro heq
      rw [heq, ha] at hf
      cases hf
  backward := by
    intro e k' hlook
    rcases of_lookup_insert hlook with ⟨rfl, rfl⟩ | ⟨-, hold⟩
    · exact ⟨a, AList.lookup_insert _, rfl⟩
    · obtain ⟨a', ha', hae⟩ := h.backward hold
      refine ⟨a', ?_, hae⟩
      rw [AList.lookup_insert_ne, ha']
      rintro rfl
      cases hk.symm.trans ha'

end SecureCnet.PairedIndex
