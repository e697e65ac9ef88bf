import Mathlib.Tactic

/-!
# Fixed-window rate limits

A limiter lets through up to `limit` hits in a window of the given width. The window is
restarted by the first hit after it has lapsed, so an interval of that width meets at
most two windows.
-/

/-- When the window started, zero if none has, and the hits let through since. -/
structure FixedWindow where
  started : ℕ := 0
  count : ℕ := 0

namespace FixedWindow

variable (limit width : ℕ)

/-- Restart the window if it has lapsed. -/
def renew (now : ℕ) (s : FixedWindow) : FixedWindow :=
  if s.started = 0 ∨ now < s.started ∨ s.started + width ≤ now then ⟨now, 0⟩ else s

/-- A hit: whether it is let through, and the window after it. -/
def hit (now : ℕ) (s : FixedWindow) : Bool × FixedWindow :=
  if limit ≤ (s.renew width now).count then (false, s.renew width now)
  else (true, { s.renew width now with count := (s.renew width now).count + 1 })

/-- The window accounts for the times `passed` at which hits were let through, up to time `now`. -/
structure Accounts (passed : List ℕ) (now : ℕ) (s : FixedWindow) : Prop where
  started_le : s.started ≤ now
  passed_le : ∀ p ∈ passed, p ≤ now
  count_le : s.count ≤ limit
  /-- Nothing is forgotten but an empty window. -/
  empty : s.count = 0 → passed = []
  unstarted : s.started = 0 → s.count = 0
  lapses : ∀ p ∈ passed, p < s.started + width
  current : passed.countP (fun p => s.started ≤ p) ≤ s.count
  /-- The part of an interval before the window is part of one earlier window. -/
  before : ∀ t, s.started < t + width → passed.countP (fun p => t ≤ p ∧ p < s.started) ≤ limit
  interval : ∀ t, passed.countP (fun p => t ≤ p ∧ p < t + width) ≤ 2 * limit

variable {limit width} {passed : List ℕ} {now now' : ℕ} {s : FixedWindow}

/-- After a hit the window counts one, unless none is ever let through. -/
theorem count_hit_ne_zero (hlimit : 0 < limit) (width now : ℕ) (s : FixedWindow) :
    (s.hit limit width now).2.count ≠ 0 := by
  unfold hit
  split_ifs with hfull
  · exact (hlimit.trans_le hfull).ne'
  · exact Nat.succ_ne_zero _

theorem accounts_fresh (now : ℕ) : Accounts limit width [] now {} :=
  ⟨Nat.zero_le _, by simp, Nat.zero_le _, fun _ => rfl, fun _ => rfl, by simp, by simp, by simp, by simp⟩

theorem Accounts.later (h : s.Accounts limit width passed now) (hnow : now ≤ now') :
    s.Accounts limit width passed now' :=
  { h with
    started_le := h.started_le.trans hnow
    passed_le := fun p hp => (h.passed_le p hp).trans hnow }

theorem Accounts.forget (h : s.Accounts limit width passed now) (hzero : s.count = 0) :
    Accounts limit width passed now {} := by
  rw [h.empty hzero]
  exact accounts_fresh now

theorem countP_le_add {α : Type} {p q r : α → Bool} {l : List α}
    (h : ∀ x ∈ l, p x = true → q x = true ∨ r x = true) : l.countP p ≤ l.countP q + l.countP r := by
  induction l with
  | nil => simp
  | cons x l ih =>
    obtain ⟨hx, hl⟩ := List.forall_mem_cons.mp h
    have hle := ih hl
    simp only [List.countP_cons]
    cases hp : p x with
    | false =>
      simp only [Bool.false_eq_true, if_false]
      omega
    | true =>
      rcases hx hp with hq | hr
      · simp only [hq, if_true]
        omega
      · simp only [hr, if_true]
        omega

theorem Accounts.interval_le (h : s.Accounts limit width passed now) {t : ℕ}
    (ht : s.started < t + width) :
    passed.countP (fun p => t ≤ p ∧ p < t + width) ≤ limit + s.count := by
  refine (countP_le_add fun p _ hp => ?_).trans (Nat.add_le_add (h.before t ht) h.current)
  simp only [decide_eq_true_eq] at hp ⊢
  omega

/-- A hit that is let through in the running window. -/
theorem Accounts.hit_running (h : s.Accounts limit width passed now) (hnow : now ≤ now')
    (hstarted : s.started ≠ 0) (hruns : now' < s.started + width) (hcount : s.count < limit) :
    Accounts limit width (passed ++ [now']) now' { s with count := s.count + 1 } where
  started_le := h.started_le.trans hnow
  passed_le := by
    have := (h.later hnow).passed_le
    simpa [or_imp, forall_and] using this
  count_le := hcount
  empty := by simp
  unstarted hzero := absurd hzero hstarted
  lapses := by
    have := h.lapses
    simpa [or_imp, forall_and, hruns] using this
  current := by
    have hle := h.started_le.trans hnow
    simpa [hle] using h.current
  before t ht := by
    have hle := h.started_le.trans hnow
    simpa [Nat.not_lt.mpr hle] using h.before t ht
  interval t := by
    have hold := h.interval t
    have hnew := fun ht : s.started < t + width => h.interval_le ht
    have hle := h.started_le.trans hnow
    rw [List.countP_append, List.countP_singleton]
    split_ifs with hin
    · simp only [decide_eq_true_eq] at hin
      have := hnew (by omega)
      omega
    · exact hold

/-- A hit that restarts the window. -/
theorem Accounts.hit_lapsed (h : s.Accounts limit width passed now) (hpos : now' ≠ 0)
    (hlapsed : s.started = 0 ∨ s.started + width ≤ now') (hlimit : 0 < limit)
    (hwidth : 0 < width) : Accounts limit width (passed ++ [now']) now' ⟨now', 1⟩ := by
  have hless : ∀ p ∈ passed, p < now' := by
    intro p hp
    rcases hlapsed with hzero | hlapsed
    · rw [h.empty (h.unstarted hzero)] at hp
      cases hp
    · exact (h.lapses p hp).trans_le hlapsed
  -- Recent hits were all let through in the window that lapsed.
  have hrecent : ∀ t u, now' < t + width →
      passed.countP (fun p => t ≤ p ∧ p < u) ≤ limit := by
    intro t u ht
    refine (List.countP_mono_left fun p hp hin => ?_).trans (h.current.trans h.count_le)
    simp only [decide_eq_true_eq] at hin ⊢
    rcases hlapsed with hzero | hlapsed <;> omega
  refine ⟨le_rfl, ?_, hlimit, by simp, fun hzero => absurd hzero hpos, ?_, ?_, fun t ht => ?_,
    fun t => ?_⟩
  · have := fun p hp => (hless p hp).le
    simpa [or_imp, forall_and] using this
  · have := fun p hp => (hless p hp).trans (Nat.lt_add_of_pos_right hwidth)
    simpa [or_imp, forall_and, hwidth] using this
  · have hnone : passed.countP (fun p => now' ≤ p) = 0 := by
      rw [List.countP_eq_zero]
      exact fun p hp => by simpa using hless p hp
    rw [List.countP_append, hnone]
    simp
  · rw [List.countP_append]
    simpa using hrecent t now' ht
  · rw [List.countP_append, List.countP_singleton]
    split_ifs with hin
    · simp only [decide_eq_true_eq] at hin
      have := hrecent t (t + width) hin.2
      omega
    · exact h.interval t

/-- Every hit is accounted for. -/
theorem Accounts.hit (h : s.Accounts limit width passed now) (hnow : now ≤ now') (hpos : now' ≠ 0)
    (hwidth : 0 < width) : (s.hit limit width now').2.Accounts limit width
      (passed ++ if (s.hit limit width now').1 then [now'] else []) now' := by
  have hle := h.started_le.trans hnow
  unfold FixedWindow.hit renew
  by_cases hlapsed : s.started = 0 ∨ now' < s.started ∨ s.started + width ≤ now'
  · simp only [if_pos hlapsed]
    by_cases hlimit : limit ≤ 0
    · -- Nothing is ever let through.
      have hnil : passed = [] := h.empty (Nat.le_zero.mp (h.count_le.trans hlimit))
      simp only [if_pos hlimit, hnil, Bool.false_eq_true, if_false, List.append_nil]
      refine ⟨le_rfl, ?_, Nat.zero_le _, fun _ => rfl, fun _ => rfl, ?_, ?_, ?_, ?_⟩ <;> simp
    · simp only [if_neg hlimit, if_true]
      exact h.hit_lapsed hpos (by omega) (by omega) hwidth
  · simp only [if_neg hlapsed]
    by_cases hlimit : limit ≤ s.count
    · simpa only [if_pos hlimit, Bool.false_eq_true, if_false, List.append_nil] using h.later hnow
    · simp only [if_neg hlimit, if_true]
      exact h.hit_running hnow (by omega) (by omega) (Nat.lt_of_not_le hlimit)

end FixedWindow
