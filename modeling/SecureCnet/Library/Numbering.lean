import Mathlib.Data.List.Perm.Subperm
import Mathlib.Data.List.Nodup
import Mathlib.Tactic

/-!
# Numbered lists

A list whose elements carry increasing positive numbers starts with the numbers
1, …, n as soon as it holds them all. And a list whose elements each come from an
element of another, no two from the same one, is contained in that list.
-/

namespace Numbering

variable {α β γ : Type*}

/-- A list that increases and holds 1, …, n has them in front. -/
theorem getElem?_eq_some_of_pairwise {l : List ℕ} (h : l.Pairwise (· < ·)) (hpos : ∀ n ∈ l, 0 < n)
    {N : ℕ} (hall : ∀ i < N, i + 1 ∈ l) : ∀ i < N, l[i]? = some (i + 1) := by
  intro i
  induction i using Nat.strong_induction_on with
  | _ i ih =>
    intro hi
    obtain ⟨k, hk, hkv⟩ := List.getElem_of_mem (hall i hi)
    have hlt : ∀ {a b : ℕ} (ha : a < l.length) (hb : b < l.length), a < b → l[a] < l[b] :=
      fun ha hb hab => List.pairwise_iff_getElem.mp h _ _ ha hb hab
    have hprev : ∀ j < i, ∀ hj : j < l.length, l[j] = j + 1 := by
      intro j hji hj
      have hsome := ih j hji (by omega)
      rw [List.getElem?_eq_getElem hj, Option.some.injEq] at hsome
      exact hsome
    rcases Nat.lt_trichotomy k i with hki | rfl | hik
    · have := hprev k hki hk
      omega
    · rw [List.getElem?_eq_getElem hk, hkv]
    · -- The number before `i + 1` would lie strictly between `i` and `i + 1`.
      have hbefore := hlt (by omega) hk hik
      rw [hkv] at hbefore
      rcases Nat.eq_zero_or_pos i with rfl | hi0
      · have := hpos _ (List.getElem_mem (by omega : 0 < l.length))
        omega
      · have hlast := hlt (by omega : i - 1 < l.length) (by omega) (by omega : i - 1 < i)
        rw [hprev (i - 1) (by omega) (by omega)] at hlast
        omega

/-- `out` holds in place `i` the content numbered `i + 1`, so it is how `l` begins. -/
theorem prefix_of_numbers {l : List α} (number : α → ℕ) {content : α → β} {out : List β}
    (h : l.Pairwise fun a b => number a < number b) (hpos : ∀ a ∈ l, 0 < number a)
    (hout : ∀ i (hi : i < out.length), ∃ a ∈ l, number a = i + 1 ∧ content a = out[i]) :
    out <+: l.map content := by
  have hnum : ∀ i < out.length, (l.map number)[i]? = some (i + 1) := by
    refine getElem?_eq_some_of_pairwise (List.pairwise_map.mpr h) ?_ ?_
    · intro n hn
      obtain ⟨a, ha, rfl⟩ := List.mem_map.mp hn
      exact hpos a ha
    · intro i hi
      obtain ⟨a, ha, hai, -⟩ := hout i hi
      exact List.mem_map.mpr ⟨a, ha, hai⟩
  rw [List.prefix_iff_getElem?]
  intro i hi
  obtain ⟨a, ha, hai, hc⟩ := hout i hi
  have hsome := hnum i hi
  rw [List.getElem?_map, Option.map_eq_some_iff] at hsome
  obtain ⟨b, hb, hbi⟩ := hsome
  -- Numbers increase, so the element with number `i + 1` is unique.
  have hab : a = b := by
    by_contra hne
    let R := fun x y : α => number x < number y ∨ number y < number x
    have : Std.Symm R := ⟨fun _ _ => Or.symm⟩
    have hR : l.Pairwise R := h.imp Or.inl
    rcases hR.forall ha (List.mem_of_getElem? hb) hne with hlt | hlt <;> omega
  rw [List.getElem?_map, hb, ← hab, ← hc]
  rfl

/-- The elements of `l` that values of `es` stem from, in the order of `es`. -/
theorem exists_origins {es : List γ} {l : List α} {value : γ → Option β} {content : α → β}
    {stems : α → γ → Prop} (hn : (es.filter fun e => (value e).isSome).Nodup)
    (hstem : ∀ e ∈ es, ∀ v, value e = some v → ∃ a ∈ l, stems a e ∧ content a = v)
    (hinj : ∀ a e e', stems a e → stems a e' → e = e') :
    ∃ as : List α, as ⊆ l ∧ as.Nodup ∧ as.map content = es.filterMap value ∧
      ∀ a ∈ as, ∃ e ∈ es.filter fun e => (value e).isSome, stems a e := by
  induction es with
  | nil => exact ⟨[], by simp, by simp, rfl, by simp⟩
  | cons e es ih =>
    have hn' : (es.filter fun e => (value e).isSome).Nodup :=
      hn.sublist ((List.sublist_cons_self e es).filter _)
    obtain ⟨as, hsub, hnd, hmap, hfrom⟩ :=
      ih hn' fun e' he' => hstem e' (List.mem_cons_of_mem e he')
    cases hv : value e with
    | none =>
      refine ⟨as, hsub, hnd, ?_, ?_⟩
      · rw [List.filterMap_cons, hv]
        exact hmap
      · intro a ha
        obtain ⟨e', he', hs⟩ := hfrom a ha
        exact ⟨e', ((List.sublist_cons_self e es).filter _).subset he', hs⟩
    | some v =>
      obtain ⟨a, ha, hs, hc⟩ := hstem e List.mem_cons_self v hv
      have hkeep : (e :: es).filter (fun e => (value e).isSome) =
          e :: es.filter fun e => (value e).isSome := by
        rw [List.filter_cons, hv]
        rfl
      rw [hkeep] at hn
      refine ⟨a :: as, List.cons_subset.mpr ⟨ha, hsub⟩, List.nodup_cons.mpr ⟨?_, hnd⟩, ?_, ?_⟩
      · intro hmem
        obtain ⟨e', he', hs'⟩ := hfrom a hmem
        rw [hinj a e' e hs' hs] at he'
        exact (List.nodup_cons.mp hn).1 he'
      · rw [List.map_cons, List.filterMap_cons, hv, hmap, hc]
      · intro b hb
        rw [hkeep]
        rcases List.mem_cons.mp hb with rfl | hb
        · exact ⟨e, List.mem_cons_self, hs⟩
        · obtain ⟨e', he', hs'⟩ := hfrom b hb
          exact ⟨e', List.mem_cons_of_mem e he', hs'⟩

/-- Values that each stem from an element of `l`, no two from the same element. -/
theorem subperm_of_origins {es : List γ} {l : List α} {value : γ → Option β} {content : α → β}
    {stems : α → γ → Prop} (hn : (es.filter fun e => (value e).isSome).Nodup)
    (hstem : ∀ e ∈ es, ∀ v, value e = some v → ∃ a ∈ l, stems a e ∧ content a = v)
    (hinj : ∀ a e e', stems a e → stems a e' → e = e') :
    List.Subperm (es.filterMap value) (l.map content) := by
  obtain ⟨as, hsub, hnd, hmap, -⟩ := exists_origins hn hstem hinj
  obtain ⟨k, hperm, hk⟩ := hnd.subperm hsub
  rw [← hmap]
  exact ⟨k.map content, hperm.map content, hk.map content⟩

end Numbering
