import SecureCnet.Library.SlidingWindow
import SecureCnet.Wire.Config

/-!
# Receive windows

`ReplayWindow` filters packet numbers, `ReliableReceiveWindow` message ids; both
are the 64-bit bitmap window of the library, the second with number zero refused.
`SequencedReceiveWindow` keeps only the newest number.
-/

namespace SecureCnet

open SlidingWindow

structure ReplayWindow where
  initialized : Bool := false
  latest : UInt64 := 0
  seen : UInt64 := 0
  deriving DecidableEq, Repr

namespace ReplayWindow

def accept (sequence : UInt64) (w : ReplayWindow) : Bool × ReplayWindow :=
  if !w.initialized then (true, ⟨true, sequence, 1⟩)
  else if w.latest < sequence then
    let delta := sequence - w.latest
    let shifted := if 64 ≤ delta then 0 else w.seen <<< delta
    (true, ⟨true, sequence, shifted ||| 1⟩)
  else
    let delta := w.latest - sequence
    if 64 ≤ delta then (false, w)
    else
      let mask : UInt64 := 1 <<< delta
      let duplicate : Bool := w.seen &&& mask ≠ 0
      (!duplicate, { w with seen := w.seen ||| mask })

/-- The window as the library's bitmap window. -/
def toWindow (w : ReplayWindow) : Window 64 := ⟨w.initialized, w.latest.toNat, w.seen.toBitVec⟩

theorem toBitVec_shiftLeft_of_lt (x : UInt64) {d : UInt64} (h : d.toNat < 64) :
    (x <<< d).toBitVec = x.toBitVec <<< d.toNat := by
  have hd : d.toBitVec % 64 = d.toBitVec := by
    apply BitVec.eq_of_toNat_eq
    rw [BitVec.toNat_umod]
    exact Nat.mod_eq_of_lt h
  rw [UInt64.toBitVec_shiftLeft, hd]
  rfl

/-- A set bit is what the mask test of the source finds. -/
theorem and_mask_ne_zero_iff (x : UInt64) {d : UInt64} (h : d.toNat < 64) :
    x &&& (1 <<< d) ≠ 0 ↔ x.toBitVec.getLsbD d.toNat = true := by
  have hzero : x &&& (1 <<< d) = 0 ↔ x.toBitVec &&& (1#64 <<< d.toNat) = 0#64 := by
    rw [← UInt64.toBitVec_inj, UInt64.toBitVec_and, toBitVec_shiftLeft_of_lt _ h]
    rfl
  rw [Ne, hzero]
  constructor
  · intro hne
    by_contra hbit
    apply hne
    apply BitVec.eq_of_getLsbD_eq
    intro i hi
    simp only [BitVec.getLsbD_and, BitVec.getLsbD_shiftLeft, BitVec.getLsbD_one,
      BitVec.getLsbD_zero]
    by_cases hid : i = d.toNat
    · subst hid
      simp [Bool.not_eq_true] at hbit
      simp [hbit]
    · simp
      omega
  · intro hbit hall
    have := congrArg (fun v => v.getLsbD d.toNat) hall
    simp only [BitVec.getLsbD_and, BitVec.getLsbD_shiftLeft, hbit] at this
    simp [h] at this

/-- The code computes the library's acceptance function. -/
theorem accept_toWindow (s : UInt64) (w : ReplayWindow) :
    ((w.accept s).1, (w.accept s).2.toWindow) = SlidingWindow.accept s.toNat w.toWindow := by
  have hs := s.toNat_lt
  have hl := w.latest.toNat_lt
  unfold accept SlidingWindow.accept toWindow
  cases hi : w.initialized with
  | false => rfl
  | true =>
    simp only [Bool.not_true, Bool.false_eq_true, if_false, Bool.true_eq_false,
      UInt64.lt_iff_toNat_lt, UInt64.le_iff_toNat_le]
    by_cases hlt : w.latest.toNat < s.toNat
    · have hsub : (s - w.latest).toNat = s.toNat - w.latest.toNat :=
        UInt64.toNat_sub_of_le _ _ (UInt64.le_iff_toNat_le.mpr hlt.le)
      simp only [hlt, if_true, hsub, slide]
      by_cases hbig : 64 ≤ s.toNat - w.latest.toNat
      · simp [hbig, show (64 : UInt64).toNat = 64 from rfl]
      · have hshift := toBitVec_shiftLeft_of_lt w.seen (d := s - w.latest) (by omega)
        rw [hsub] at hshift
        simp [hbig, show (64 : UInt64).toNat = 64 from rfl, hshift]
    · have hsub : (w.latest - s).toNat = w.latest.toNat - s.toNat :=
        UInt64.toNat_sub_of_le _ _ (UInt64.le_iff_toNat_le.mpr (by omega))
      simp only [hlt, if_false, hsub, show (64 : UInt64).toNat = 64 from rfl]
      by_cases hbig : 64 ≤ w.latest.toNat - s.toNat
      · simp [hbig, hi]
      · have hlt64 : (w.latest - s).toNat < 64 := by omega
        have hmask := and_mask_ne_zero_iff w.seen hlt64
        have hshift := toBitVec_shiftLeft_of_lt 1 hlt64
        rw [hsub] at hmask hshift
        simp only [hbig, if_false, UInt64.toBitVec_or, hshift]
        congr 1
        cases hb : w.seen.toBitVec.getLsbD (w.latest.toNat - s.toNat) <;> simp_all

def Holds (w : ReplayWindow) (S : Set ℕ) : Prop := SlidingWindow.Holds w.toWindow S

theorem holds_default : Holds {} ∅ := holds_empty _ _

variable {w : ReplayWindow} {S : Set ℕ} {l : List UInt64}

theorem accept_eq_true_iff (h : w.Holds S) (s : UInt64) :
    (w.accept s).1 = true ↔
      s.toNat ∉ S ∧ (w.initialized = true → w.latest.toNat < s.toNat + 64) := by
  have he := congrArg Prod.fst (accept_toWindow s w)
  simp only at he
  rw [he]
  exact accept_fst_iff h s.toNat

theorem holds_accept (h : w.Holds S) (s : UInt64) :
    (w.accept s).2.Holds (if (w.accept s).1 = true then insert s.toNat S else S) := by
  have he := accept_toWindow s w
  have h1 := congrArg Prod.fst he
  have h2 := congrArg Prod.snd he
  simp only at h1 h2
  unfold Holds
  rw [h1, h2]
  exact SlidingWindow.holds_accept h (by norm_num) s.toNat

theorem Holds.le_latest (h : w.Holds S) {s : ℕ} (hs : s ∈ S) : s ≤ w.latest.toNat :=
  SlidingWindow.Holds.le_latest h s hs

/-- The window after some more numbers were offered to it. -/
def Grows : ReplayWindow → ReplayWindow → Prop :=
  Relation.ReflTransGen fun w w' => ∃ s, w' = (w.accept s).2

theorem grows_accept (w : ReplayWindow) (s : UInt64) : w.Grows (w.accept s).2 := .single ⟨s, rfl⟩

theorem Holds.accept_mono (h : w.Holds S) (s : UInt64) : ∃ S', (w.accept s).2.Holds S' ∧ S ⊆ S' := by
  refine ⟨_, holds_accept h s, ?_⟩
  split_ifs
  · exact Set.subset_insert _ _
  · exact Set.Subset.refl _

/-- A number the window rejects is rejected ever after. -/
theorem Holds.rejects_accept (h : w.Holds S) {s : UInt64} (hs : (w.accept s).1 = false)
    (t : UInt64) : ((w.accept t).2.accept s).1 = false := by
  obtain ⟨S', h', hsub⟩ := h.accept_mono t
  by_contra htrue
  rw [Bool.not_eq_false, accept_eq_true_iff h'] at htrue
  rw [← Bool.not_eq_true, accept_eq_true_iff h, not_and] at hs
  have hold := hs fun hmem => htrue.1 (hsub hmem)
  rw [Classical.not_imp] at hold
  have hlatest := h'.le_latest (hsub (h.latest_mem hold.1))
  have hstarted : (w.accept t).2.initialized = true := by
    have hst := SlidingWindow.accept_started t.toNat w.toWindow
    rwa [← accept_toWindow] at hst
  have hlt := htrue.2 hstarted
  have hge := hold.2
  change w.latest.toNat ≤ _ at hlatest
  omega

theorem Holds.accept_again (h : w.Holds S) (s : UInt64) : ((w.accept s).2.accept s).1 = false := by
  cases hs : (w.accept s).1 with
  | false => exact h.rejects_accept hs s
  | true =>
    have h' := holds_accept h s
    rw [if_pos hs] at h'
    rw [← Bool.not_eq_true, accept_eq_true_iff h']
    exact fun hnew => hnew.1 (Set.mem_insert _ _)

theorem Grows.holds {w' : ReplayWindow} (hg : w.Grows w') (h : w.Holds S) : ∃ S', w'.Holds S' := by
  induction hg with
  | refl => exact ⟨S, h⟩
  | tail _ hstep ih =>
    obtain ⟨S', h'⟩ := ih
    obtain ⟨t, rfl⟩ := hstep
    exact ⟨_, holds_accept h' t⟩

theorem Grows.rejects {w' : ReplayWindow} (hg : w.Grows w') (h : w.Holds S) {s : UInt64}
    (hs : (w.accept s).1 = false) : (w'.accept s).1 = false := by
  induction hg with
  | refl => exact hs
  | tail hprev hstep ih =>
    obtain ⟨S', h'⟩ := Grows.holds hprev h
    obtain ⟨t, rfl⟩ := hstep
    exact h'.rejects_accept ih t

/-- After a sequence of calls the window represents the old set and the numbers accepted. -/
theorem holds_after (h : w.Holds S) (l : List UInt64) :
    (after accept l w).Holds (S ∪ UInt64.toNat '' {t | t ∈ taken accept l w}) := by
  induction l generalizing w S with
  | nil => simpa using h
  | cons s l ih =>
    have hstep := ih (holds_accept h s)
    rw [after_cons, taken_cons]
    by_cases hs : (w.accept s).1 = true
    · rw [if_pos hs] at hstep ⊢
      convert hstep using 1
      ext n
      simp only [Set.mem_union, Set.mem_image, Set.mem_ofPred_eq, List.mem_cons, Set.mem_insert_iff]
      constructor
      · rintro (hn | ⟨t, rfl | ht, rfl⟩)
        · exact Or.inl (Or.inr hn)
        · exact Or.inl (Or.inl rfl)
        · exact Or.inr ⟨t, ht, rfl⟩
      · rintro ((rfl | hn) | ⟨t, ht, rfl⟩)
        · exact Or.inr ⟨s, Or.inl rfl, rfl⟩
        · exact Or.inl hn
        · exact Or.inr ⟨t, Or.inr ht, rfl⟩
    · rw [if_neg hs] at hstep ⊢
      exact hstep

theorem holds_since_reset (l : List UInt64) :
    (after accept l {}).Holds (UInt64.toNat '' {t | t ∈ taken accept l {}}) := by
  have h := holds_after holds_default l
  rwa [Set.empty_union] at h

theorem mem_taken_iff (s : UInt64) :
    s.toNat ∈ UInt64.toNat '' {t | t ∈ taken accept l {}} ↔ s ∈ taken accept l {} := by
  constructor
  · rintro ⟨t, ht, heq⟩
    rwa [UInt64.toNat_inj.mp heq] at ht
  · exact fun hs => ⟨s, hs, rfl⟩

theorem isGreatest_latest (h : (after accept l {}).initialized = true) :
    IsGreatest {t | t ∈ taken accept l {}} (after accept l {}).latest := by
  have hold := holds_since_reset l
  constructor
  · exact (mem_taken_iff _).mp (hold.latest_mem h)
  · intro t ht
    exact UInt64.le_iff_toNat_le.mpr (hold.le_latest ((mem_taken_iff t).mpr ht))

theorem taken_eq_nil_iff : taken accept l {} = [] ↔ (after accept l {}).initialized = false := by
  constructor
  · intro hnil
    by_contra hinit
    have hmem := (isGreatest_latest (Bool.not_eq_false _ ▸ hinit)).1
    rw [Set.mem_ofPred_eq, hnil] at hmem
    cases hmem
  · intro hinit
    have hempty := (holds_since_reset l).empty hinit
    rw [Set.image_eq_empty] at hempty
    exact List.eq_nil_iff_forall_not_mem.mpr fun t ht => hempty.subset ht

/-- What the window knows of its largest number, in terms of the numbers accepted. -/
theorem initialized_and_iff {P : UInt64 → Prop} :
    ((after accept l {}).initialized = true ∧ P (after accept l {}).latest) ↔
      ∃ m, IsGreatest {t | t ∈ taken accept l {}} m ∧ P m := by
  constructor
  · exact fun ⟨hinit, hP⟩ => ⟨_, isGreatest_latest hinit, hP⟩
  · rintro ⟨m, hm, hP⟩
    have hinit : (after accept l {}).initialized = true := by
      by_contra hnot
      have hnil := taken_eq_nil_iff.mpr (Bool.not_eq_true _ ▸ hnot)
      have hmem := hm.1
      rw [Set.mem_ofPred_eq, hnil] at hmem
      cases hmem
    have heq : m = (after accept l {}).latest := by
      have hg := isGreatest_latest hinit
      exact UInt64.le_antisymm (hg.2 hm.1) (hm.2 hg.1)
    exact ⟨hinit, heq ▸ hP⟩

end ReplayWindow

structure ReliableReceiveWindow where
  window : ReplayWindow := {}
  deriving DecidableEq, Repr

namespace ReliableReceiveWindow

def accept (messageId : UInt64) (w : ReliableReceiveWindow) : Bool × ReliableReceiveWindow :=
  if messageId = 0 then (false, w)
  else if !w.window.initialized then (true, ⟨⟨true, messageId, 1⟩⟩)
  else if w.window.latest < messageId then
    let delta := messageId - w.window.latest
    let shifted := if 64 ≤ delta then 0 else w.window.seen <<< delta
    (true, ⟨⟨true, messageId, shifted ||| 1⟩⟩)
  else
    let delta := w.window.latest - messageId
    if 64 ≤ delta then (false, w)
    else
      let mask : UInt64 := 1 <<< delta
      let duplicate : Bool := w.window.seen &&& mask ≠ 0
      (!duplicate, ⟨{ w.window with seen := w.window.seen ||| mask }⟩)

def seen (messageId : UInt64) (w : ReliableReceiveWindow) : Bool :=
  if messageId = 0 then false
  else if !w.window.initialized || w.window.latest < messageId then false
  else
    let delta := w.window.latest - messageId
    if 64 ≤ delta then false else w.window.seen &&& (1 <<< delta) ≠ 0

theorem accept_of_ne_zero {id : UInt64} (h : id ≠ 0) (w : ReliableReceiveWindow) :
    w.accept id = ((w.window.accept id).1, ⟨(w.window.accept id).2⟩) := by
  unfold accept ReplayWindow.accept
  rw [if_neg h]
  dsimp only
  split_ifs <;> rfl

theorem accept_zero (w : ReliableReceiveWindow) : w.accept 0 = (false, w) := rfl

theorem after_eq_replay (l : List UInt64) (w : ReliableReceiveWindow) :
    after accept l w = ⟨after ReplayWindow.accept (l.filter (· ≠ 0)) w.window⟩ ∧
      taken accept l w = taken ReplayWindow.accept (l.filter (· ≠ 0)) w.window := by
  induction l generalizing w with
  | nil => exact ⟨rfl, rfl⟩
  | cons id l ih =>
    by_cases hid : id = 0
    · subst hid
      rw [after_cons, taken_cons, accept_zero]
      exact ih w
    · obtain ⟨hafter, htaken⟩ := ih ⟨(w.window.accept id).2⟩
      rw [List.filter_cons_of_pos (by simpa using hid), after_cons, after_cons, taken_cons,
        taken_cons, accept_of_ne_zero hid, hafter, htaken]
      exact ⟨rfl, rfl⟩

/-- A number is seen when it was accepted and the window still covers it. -/
theorem seen_eq_true_iff {w : ReliableReceiveWindow} {S : Set ℕ} (h : w.window.Holds S)
    (id : UInt64) :
    w.seen id = true ↔ id ≠ 0 ∧ w.window.initialized = true ∧ id.toNat ∈ S ∧
      w.window.latest.toNat - id.toNat < 64 := by
  unfold seen
  by_cases hid : id = 0
  · simp [hid]
  rw [if_neg hid]
  by_cases hinit : w.window.initialized = true
  · by_cases hlt : w.window.latest < id
    · have hnot : id.toNat ∉ S := fun hmem => by
        have hle := h.le_latest hmem
        rw [UInt64.lt_iff_toNat_lt] at hlt
        omega
      simp [hlt, hnot]
    · have hle : id ≤ w.window.latest := UInt64.not_lt.mp hlt
      have hsub : (w.window.latest - id).toNat = w.window.latest.toNat - id.toNat :=
        UInt64.toNat_sub_of_le _ _ hle
      rw [UInt64.le_iff_toNat_le] at hle
      have h64 : 64 ≤ w.window.latest - id ↔ 64 ≤ w.window.latest.toNat - id.toNat := by
        rw [UInt64.le_iff_toNat_le, hsub]
        rfl
      simp only [hinit, hlt, Bool.not_true, Bool.false_or, decide_false, Bool.false_eq_true,
        if_false, h64]
      by_cases hold : 64 ≤ w.window.latest.toNat - id.toNat
      · rw [if_pos hold]
        simp only [Bool.false_eq_true, false_iff, not_and, not_lt]
        exact fun _ _ _ => hold
      · have hmask := ReplayWindow.and_mask_ne_zero_iff w.window.seen (d := w.window.latest - id)
          (by omega)
        have hbit := SlidingWindow.Holds.bit h hinit (w.window.latest.toNat - id.toNat)
          (by omega) (Nat.sub_le _ _)
        change w.window.seen.toBitVec.getLsbD _ = true ↔
          w.window.latest.toNat - (w.window.latest.toNat - id.toNat) ∈ S at hbit
        rw [Nat.sub_sub_self hle] at hbit
        rw [if_neg hold, decide_eq_true_iff, hmask, hsub, hbit]
        simp only [ne_eq, hid, not_false_eq_true, true_and, iff_self_and]
        intro _
        omega
  · simp [hinit]

end ReliableReceiveWindow

/-- The two bitmap windows implement the set of the numbers accepted so far: after any sequence
of calls a number is accepted exactly when it is new and less than 64 below the largest one. -/
theorem windows_implement_set (l : List UInt64) (s : UInt64) :
    (((after ReplayWindow.accept l {}).accept s).1 = true ↔
        s ∉ taken ReplayWindow.accept l {} ∧
          (taken ReplayWindow.accept l {} = [] ∨
            ∃ m, IsGreatest {t | t ∈ taken ReplayWindow.accept l {}} m ∧
              m.toNat < s.toNat + 64)) ∧
      ((∀ t ∈ l, t ≠ 0) →
        taken ReliableReceiveWindow.accept l {} = taken ReplayWindow.accept l {} ∧
          (s ≠ 0 → ((after ReliableReceiveWindow.accept l {}).accept s).1 =
            ((after ReplayWindow.accept l {}).accept s).1)) ∧
      (after ReliableReceiveWindow.accept l {}).accept 0 =
        (false, after ReliableReceiveWindow.accept l {}) ∧
      ((after ReliableReceiveWindow.accept l {}).seen s = true ↔
        s ≠ 0 ∧ s ∈ taken ReliableReceiveWindow.accept l {} ∧
          ∃ m, IsGreatest {t | t ∈ taken ReliableReceiveWindow.accept l {}} m ∧
            m.toNat - s.toNat < 64) := by
  obtain ⟨hafter, htaken⟩ := ReliableReceiveWindow.after_eq_replay l {}
  refine ⟨?_, fun hl => ?_, ReliableReceiveWindow.accept_zero _, ?_⟩
  · rw [ReplayWindow.accept_eq_true_iff (ReplayWindow.holds_since_reset l),
      ReplayWindow.mem_taken_iff, ReplayWindow.taken_eq_nil_iff, ← ReplayWindow.initialized_and_iff]
    cases (after ReplayWindow.accept l {}).initialized <;> simp
  · have hfilter : l.filter (· ≠ 0) = l := List.filter_eq_self.mpr (by simpa using hl)
    rw [hafter, htaken, hfilter]
    exact ⟨rfl, fun hs => congrArg Prod.fst (ReliableReceiveWindow.accept_of_ne_zero hs _)⟩
  · have hwindow : (after ReliableReceiveWindow.accept l {}).window =
        after ReplayWindow.accept (l.filter (· ≠ 0)) {} := by rw [hafter]
    have hold := ReplayWindow.holds_since_reset (l.filter (· ≠ 0))
    rw [← hwindow] at hold
    rw [ReliableReceiveWindow.seen_eq_true_iff hold, htaken, ReplayWindow.mem_taken_iff, hwindow,
      ← ReplayWindow.initialized_and_iff]
    tauto

/-- Of three calls the window accepts two, and it has seen the first number still. -/
theorem windows_implement_set_repeated :
    (∀ t ∈ [5, 5, 60], t ≠ (0 : UInt64)) ∧
      taken ReliableReceiveWindow.accept [5, 5, 60] {} = taken ReplayWindow.accept [5, 5, 60] {} ∧
      (after ReliableReceiveWindow.accept [5, 5, 60] {}).seen 5 = true :=
  have h := windows_implement_set [5, 5, 60] 5
  have hne : ∀ t ∈ [5, 5, 60], t ≠ (0 : UInt64) := by simp
  ⟨hne, (h.2.1 hne).1, by decide⟩

structure SequencedReceiveWindow where
  initialized : Bool := false
  latest : UInt64 := 0
  deriving DecidableEq, Repr

def SequencedReceiveWindow.accept (deliverySequence : UInt64) (w : SequencedReceiveWindow) :
    Bool × SequencedReceiveWindow :=
  if deliverySequence = 0 then (false, w)
  else if !w.initialized then (true, ⟨true, deliverySequence⟩)
  else if deliverySequence ≤ w.latest then (false, w)
  else (true, { w with latest := deliverySequence })

end SecureCnet
