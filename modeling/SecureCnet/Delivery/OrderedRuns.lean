import SecureCnet.Delivery.Ordered
import SecureCnet.Library.TableSum

/-!
# Runs of the ordered receive window

Any sequence of calls releases, number by number, what the first call with that number
brought that did not find the buffer full. The buffer holds only numbers above the next
one to release, and never more than it may.
-/

namespace SecureCnet

namespace OrderedReceiveWindow

open TableSum

section Calls

variable {σ : Type} (deliver : UInt8 → Bytes → σ → Result Unit × σ)

/-- A call: a sequence number with a type and a payload. -/
abbrev Call := UInt64 × BufferedMessage

/-- A sequence of calls, with what each of them reports. -/
def acceptAll : List Call → OrderedReceiveWindow → σ → List Report × OrderedReceiveWindow × σ
  | [], w, s => ([], w, s)
  | c :: calls, w, s =>
    let (report, w, s) := w.acceptWith deliver c.1 c.2.1 c.2.2 s
    let (reports, w, s) := acceptAll calls w s
    (report :: reports, w, s)

/-- A callback that also lists the messages it is given. -/
def recording (type : UInt8) (data : Bytes) (s : σ × List BufferedMessage) :
    Result Unit × σ × List BufferedMessage :=
  let (rc, t) := deliver type data s.1
  (rc, t, s.2 ++ [(type, data)])

/-- The call did not fail for lack of room. -/
def Report.kept (r : Report) : Bool :=
  match r.rc with
  | .error e => e.code ≠ .queueFull
  | .ok () => true

/-- What the first call with a number brought that did not fail for lack of room. -/
def firstKept (calls : List Call) (reports : List Report) (n : ℕ) : Option BufferedMessage :=
  ((calls.zip reports).find? fun cr => cr.1.1.toNat = n && cr.2.kept).map fun cr => cr.1.2

theorem acceptAll_append (calls : List Call) (c : Call) (w : OrderedReceiveWindow) (s : σ) :
    acceptAll deliver (calls ++ [c]) w s =
      ((acceptAll deliver calls w s).1 ++
          [((acceptAll deliver calls w s).2.1.acceptWith deliver c.1 c.2.1 c.2.2
            (acceptAll deliver calls w s).2.2).1],
        ((acceptAll deliver calls w s).2.1.acceptWith deliver c.1 c.2.1 c.2.2
          (acceptAll deliver calls w s).2.2).2) := by
  induction calls generalizing w s with
  | nil => rfl
  | cons b calls ih =>
    rw [List.cons_append]
    unfold acceptAll
    dsimp only
    rw [ih]
    rfl

theorem length_acceptAll (calls : List Call) (w : OrderedReceiveWindow) (s : σ) :
    (acceptAll deliver calls w s).1.length = calls.length := by
  induction calls generalizing w s with
  | nil => rfl
  | cons c calls ih => exact congrArg (· + 1) (ih _ _)

theorem acceptAll_maxBuffered (calls : List Call) (w : OrderedReceiveWindow) (s : σ) :
    (acceptAll deliver calls w s).2.1.maxBuffered = w.maxBuffered := by
  induction calls generalizing w s with
  | nil => rfl
  | cons c calls ih => exact (ih _ _).trans (acceptWith_maxBuffered deliver _ _ _ w s)

theorem firstKept_append {calls : List Call} {reports : List Report}
    (hlen : reports.length = calls.length) (c : Call) (r : Report) (n : ℕ) :
    firstKept (calls ++ [c]) (reports ++ [r]) n =
      (firstKept calls reports n).or (if c.1.toNat = n && r.kept then some c.2 else none) := by
  unfold firstKept
  rw [List.zip_append hlen.symm, List.find?_append, Option.map_or]
  congr 1
  by_cases h : (c.1.toNat = n && r.kept) = true <;> simp [h]

theorem mem_of_firstKept {calls : List Call} {reports : List Report} {n : ℕ} {m : BufferedMessage}
    (h : firstKept calls reports n = some m) : ∃ c ∈ calls, c.1.toNat = n ∧ c.2 = m := by
  obtain ⟨cr, hcr, rfl⟩ := Option.map_eq_some_iff.mp h
  have hn := List.find?_some hcr
  rw [Bool.and_eq_true, decide_eq_true_eq] at hn
  exact ⟨cr.1, (List.of_mem_zip (List.mem_of_find?_eq_some hcr)).1, hn.1, rfl⟩

end Calls

variable {f : ℕ → Option BufferedMessage} {w : OrderedReceiveWindow} {out : List BufferedMessage}

/-- The numbers of the buffer lie above the next one, there is room for them, and every number
with a meaning was released or waits. -/
structure Tracks (f : ℕ → Option BufferedMessage) (w : OrderedReceiveWindow)
    (out : List BufferedMessage) : Prop extends Agrees f w out where
  above : ∀ s m, w.buffer.lookup s = some m → w.nextExpected < s
  capacity : w.buffer.entries.length ≤ w.maxBuffered.toNat
  known : ∀ s : UInt64, (f s.toNat).isSome → s < w.nextExpected ∨ (w.buffer.lookup s).isSome

theorem tracks_fresh (maxBuffered : UInt32) :
    Tracks (fun _ => none) { maxBuffered } [] where
  toAgrees := agrees_fresh _ maxBuffered
  above := by simp
  capacity := Nat.zero_le _
  known := by simp

theorem length_erase {s : UInt64} {m : BufferedMessage} (h : w.buffer.lookup s = some m) :
    (w.buffer.erase s).entries.length + 1 = w.buffer.entries.length := by
  have hone := total_eq_erase_add (w := fun _ => 1) h
  rw [total_one, total_one] at hone
  exact hone.symm

theorem lookup_release {fuel : ℕ} {s : UInt64} {m : BufferedMessage}
    (h : (release fuel w).2.buffer.lookup s = some m) : w.buffer.lookup s = some m := by
  induction fuel generalizing w with
  | zero => exact h
  | succ fuel ih =>
    unfold release at h
    cases hl : w.buffer.lookup w.nextExpected with
    | none =>
      rw [hl] at h
      exact h
    | some x =>
      rw [hl] at h
      have hrest := ih h
      change (w.buffer.erase w.nextExpected).lookup s = some m at hrest
      by_cases hs : s = w.nextExpected
      · rw [hs, AList.lookup_erase] at hrest
        cases hrest
      · rwa [AList.lookup_erase_ne hs] at hrest

/-- With as much fuel as there are entries the release loop runs until the next number is not
there. It drops no number that was not released. -/
theorem release_ends (fuel : ℕ) (hfuel : w.buffer.entries.length ≤ fuel)
    (hnext : ∀ s m, w.buffer.lookup s = some m → w.nextExpected ≤ s ∧ s.toNat + 1 < 2 ^ 64) :
    (∀ s m, (release fuel w).2.buffer.lookup s = some m → (release fuel w).2.nextExpected < s) ∧
      (release fuel w).2.buffer.entries.length ≤ w.buffer.entries.length ∧
      (release fuel w).2.maxBuffered = w.maxBuffered ∧
      ∀ s, s < w.nextExpected ∨ (w.buffer.lookup s).isSome →
        s < (release fuel w).2.nextExpected ∨ ((release fuel w).2.buffer.lookup s).isSome := by
  induction fuel generalizing w with
  | zero =>
    have hnil : w.buffer.entries = [] := List.length_eq_zero_iff.mp (Nat.le_zero.mp hfuel)
    refine ⟨fun s m hs => ?_, le_rfl, rfl, fun s hs => hs⟩
    have hmem := AList.mem_lookup_iff.mp hs
    change _ ∈ w.buffer.entries at hmem
    rw [hnil] at hmem
    cases hmem
  | succ fuel ih =>
    unfold release
    cases hl : w.buffer.lookup w.nextExpected with
    | none =>
      refine ⟨fun s m hs => ?_, le_rfl, rfl, fun s hs => hs⟩
      refine UInt64.lt_of_le_of_ne (hnext s m hs).1 fun heq => ?_
      rw [← heq, hl] at hs
      cases hs
    | some m =>
      have hsucc : (w.nextExpected + 1).toNat = w.nextExpected.toNat + 1 := by
        have hlt := (hnext _ _ hl).2
        rw [UInt64.toNat_add]
        exact Nat.mod_eq_of_lt hlt
      have hlen := length_erase hl
      obtain ⟨habove, hle, hmax, hkept⟩ := ih (w := { w with
        nextExpected := w.nextExpected + 1, buffer := w.buffer.erase w.nextExpected })
        (by change (w.buffer.erase w.nextExpected).entries.length ≤ fuel; omega) (by
          intro s x hs
          change (w.buffer.erase w.nextExpected).lookup s = some x at hs
          by_cases hsn : s = w.nextExpected
          · rw [hsn, AList.lookup_erase] at hs
            cases hs
          · rw [AList.lookup_erase_ne hsn] at hs
            obtain ⟨hle, hlt⟩ := hnext s x hs
            refine ⟨?_, hlt⟩
            have hne : s.toNat ≠ w.nextExpected.toNat := fun h => hsn (UInt64.toNat_inj.mp h)
            rw [UInt64.le_iff_toNat_le] at hle ⊢
            change (w.nextExpected + 1).toNat ≤ _
            omega)
      refine ⟨habove, ?_, hmax, fun s hs => hkept s ?_⟩
      · refine hle.trans ?_
        change (w.buffer.erase w.nextExpected).entries.length ≤ _
        omega
      · change s < w.nextExpected + 1 ∨ ((w.buffer.erase w.nextExpected).lookup s).isSome = true
        by_cases hsn : s = w.nextExpected
        · left
          rw [UInt64.lt_iff_toNat_lt, hsn, hsucc]
          exact Nat.lt_succ_self _
        · rw [AList.lookup_erase_ne hsn]
          refine hs.imp_left fun hlt => ?_
          rw [UInt64.lt_iff_toNat_lt] at hlt ⊢
          omega

/-- The meaning of the numbers once a number was given one, unless it had one. -/
def assign (f : ℕ → Option BufferedMessage) (s : UInt64) (m : Option BufferedMessage) (n : ℕ) :
    Option BufferedMessage :=
  (f n).or (if s.toNat = n then m else none)

theorem assign_of_isSome {s : UInt64} (h : (f s.toNat).isSome) (m : Option BufferedMessage) :
    assign f s m = f := by
  funext n
  unfold assign
  by_cases hn : s.toNat = n
  · subst hn
    obtain ⟨x, hx⟩ := Option.isSome_iff_exists.mp h
    rw [hx]
    rfl
  · rw [if_neg hn, Option.or_none]

theorem assign_none (f : ℕ → Option BufferedMessage) (s : UInt64) : assign f s none = f := by
  funext n
  simp [assign]

theorem assign_mono (s : UInt64) (x : Option BufferedMessage) :
    ∀ n m, f n = some m → assign f s x n = some m := by
  intro n m hn
  rw [assign, hn]
  rfl

theorem assign_self {s : UInt64} (h : f s.toNat = none) (m : BufferedMessage) :
    assign f s (some m) s.toNat = some m := by
  simp [assign, h]

theorem Tracks.ne_zero (h : Tracks f w out) : w.nextExpected ≠ 0 := by
  intro h0
  have hnext := h.next
  rw [h0] at hnext
  simp at hnext

theorem Tracks.isSome_of_lt (h : Tracks f w out) {s : UInt64} (hs : s ≠ 0)
    (hlt : s < w.nextExpected) : (f s.toNat).isSome := by
  have hpos : s.toNat ≠ 0 := fun h0 => hs (UInt64.toNat_inj.mp h0)
  rw [UInt64.lt_iff_toNat_lt, h.next] at hlt
  have hrel := h.released (s.toNat - 1) (by omega)
  rw [show s.toNat - 1 + 1 = s.toNat by omega] at hrel
  rw [hrel, List.getElem?_eq_getElem (by omega)]
  rfl

theorem Tracks.eq_none (h : Tracks f w out) {s : UInt64} (hlt : ¬s < w.nextExpected)
    (hl : w.buffer.lookup s = none) : f s.toNat = none := by
  by_contra hne
  rcases h.known s (Option.isSome_iff_ne_none.mpr hne) with hk | hk
  · exact hlt hk
  · rw [hl] at hk
    cases hk

theorem Tracks.lookup_next (h : Tracks f w out) : w.buffer.lookup w.nextExpected = none := by
  cases hl : w.buffer.lookup w.nextExpected with
  | none => rfl
  | some m => exact absurd (h.above _ _ hl) (UInt64.lt_irrefl _)

variable {s : UInt64}

/-- A new number that waits. -/
theorem Tracks.insert (h : Tracks f w out) (hlt : w.nextExpected < s)
    (hl : w.buffer.lookup s = none) (hroom : w.buffer.entries.length < w.maxBuffered.toNat)
    (m : BufferedMessage) :
    Tracks (assign f s (some m)) { w with buffer := w.buffer.insert s m } out where
  next := h.next
  released := (h.toAgrees.mono (assign_mono s _)).released
  buffered := by
    intro t x ht
    by_cases hts : t = s
    · subst hts
      rw [AList.lookup_insert] at ht
      rw [← ht]
      exact assign_self (h.eq_none (UInt64.not_lt.mpr (UInt64.le_of_lt hlt)) hl) m
    · rw [AList.lookup_insert_ne hts] at ht
      exact assign_mono s _ _ _ (h.buffered t x ht)
  above := by
    intro t x ht
    by_cases hts : t = s
    · rw [hts]
      exact hlt
    · rw [AList.lookup_insert_ne hts] at ht
      exact h.above t x ht
  capacity := by
    have hone : (w.buffer.insert s m).entries.length = w.buffer.entries.length + 1 := by
      rw [← total_one, total_insert, erase_of_lookup_none hl, total_one]
    exact hone.trans_le hroom
  known := by
    intro t ht
    change t < w.nextExpected ∨ ((w.buffer.insert s m).lookup t).isSome = true
    by_cases hts : t = s
    · rw [hts, AList.lookup_insert]
      exact Or.inr rfl
    · have hne : s.toNat ≠ t.toNat := fun heq => hts (UInt64.toNat_inj.mp heq).symm
      rw [AList.lookup_insert_ne hts]
      refine h.known t ?_
      rwa [assign, if_neg hne, Option.or_none] at ht

/-- The next number is released, and whatever waited for it. -/
theorem Tracks.release (h : Tracks f w out) (hf : ∀ n m, f n = some m → n + 1 < 2 ^ 64)
    (hmax : w.nextExpected.toNat + 1 < 2 ^ 64) (m : BufferedMessage) :
    Tracks (assign f w.nextExpected (some m))
      (OrderedReceiveWindow.release w.buffer.entries.length
        { w with nextExpected := w.nextExpected + 1 }).2
      (out ++ m :: (OrderedReceiveWindow.release w.buffer.entries.length
        { w with nextExpected := w.nextExpected + 1 }).1) := by
  have hnew := assign_self (h.eq_none (UInt64.lt_irrefl _) h.lookup_next) m
  have hbound : ∀ n x, assign f w.nextExpected (some m) n = some x → n < 2 ^ 64 - 1 := by
    intro n x hn
    by_cases hn' : w.nextExpected.toNat = n
    · omega
    · rw [assign, if_neg hn', Option.or_none] at hn
      have := hf n x hn
      omega
  have hmono := h.toAgrees.mono (assign_mono w.nextExpected (some m))
  have hpush := hmono.push (b := w.buffer) hnew hmono.buffered hmax
  have hagrees := release_agrees hbound (by omega) w.buffer.entries.length hpush
  have hsucc : (w.nextExpected + 1).toNat = w.nextExpected.toNat + 1 := by
    rw [UInt64.toNat_add]
    exact Nat.mod_eq_of_lt hmax
  obtain ⟨habove, hle, hcap, hkept⟩ := release_ends (w := { w with
    nextExpected := w.nextExpected + 1 }) w.buffer.entries.length le_rfl (by
      intro t x ht
      have hlt := h.above t x ht
      refine ⟨?_, hf _ _ (h.buffered t x ht)⟩
      rw [UInt64.lt_iff_toNat_lt] at hlt
      rw [UInt64.le_iff_toNat_le]
      change (w.nextExpected + 1).toNat ≤ _
      omega)
  rw [List.append_assoc, List.singleton_append] at hagrees
  refine ⟨hagrees, habove, (hle.trans h.capacity).trans_eq (by rw [hcap]), fun t ht => hkept t ?_⟩
  change t < w.nextExpected + 1 ∨ (w.buffer.lookup t).isSome = true
  rw [UInt64.lt_iff_toNat_lt, hsucc]
  by_cases htn : w.nextExpected.toNat = t.toNat
  · exact Or.inl (by omega)
  · rw [assign, if_neg htn, Option.or_none] at ht
    refine (h.known t ht).imp_left fun hlt => ?_
    rw [UInt64.lt_iff_toNat_lt] at hlt
    omega

/-- What a call does to the window and what it reports, for a callback that succeeds. -/
theorem acceptWith_of_ne_zero {σ : Type} {deliver : UInt8 → Bytes → σ → Result Unit × σ}
    (hd : ∀ type data s, (deliver type data s).1 = .ok ()) (hw : w.nextExpected ≠ 0) (hs : s ≠ 0)
    (type : UInt8) (data : Bytes) (t : σ) :
    w.acceptWith deliver s type data t =
      if s < w.nextExpected then ({ rc := .ok (), stale := true }, w, t)
      else if s = w.nextExpected then
        ({ rc := .ok () }, (OrderedReceiveWindow.release w.buffer.entries.length
            { w with nextExpected := w.nextExpected + 1 }).2,
          feed deliver ((type, data) :: (OrderedReceiveWindow.release w.buffer.entries.length
            { w with nextExpected := w.nextExpected + 1 }).1) t)
      else if (w.buffer.lookup s).isSome then ({ rc := .ok (), stale := true }, w, t)
      else if w.maxBuffered.toNat ≤ w.buffer.entries.length then
        ({ rc := fail .queueFull "ordered receive buffer is full" }, w, t)
      else ({ rc := .ok (), buffered := true },
        { w with buffer := w.buffer.insert s (type, data) }, t) := by
  unfold acceptWith
  rw [if_neg hs]
  simp only [hw, if_false]
  have hrc := hd type data t
  cases hm : deliver type data t with
  | mk rc t' =>
    rw [hm] at hrc
    subst hrc
    dsimp only
    rw [releaseWith_eq hd]
    simp [feed, hm]

/-- A call keeps the window in step with the first messages kept for each number. -/
theorem Tracks.acceptWith {σ : Type} {deliver : UInt8 → Bytes → σ → Result Unit × σ}
    (hd : ∀ type data s, (deliver type data s).1 = .ok ()) (h : Tracks f w out)
    (hf : ∀ n m, f n = some m → n + 1 < 2 ^ 64) (hs : s ≠ 0) (hmax : s.toNat + 1 < 2 ^ 64)
    (type : UInt8) (data : Bytes) (t : σ) :
    ∃ rel, (w.acceptWith deliver s type data t).2.2 = feed deliver rel t ∧
      Tracks (assign f s (if (w.acceptWith deliver s type data t).1.kept then some (type, data)
        else none)) (w.acceptWith deliver s type data t).2.1 (out ++ rel) := by
  rw [acceptWith_of_ne_zero hd h.ne_zero hs]
  by_cases hlt : s < w.nextExpected
  · rw [if_pos hlt]
    refine ⟨[], rfl, ?_⟩
    rw [assign_of_isSome (h.isSome_of_lt hs hlt), List.append_nil]
    exact h
  rw [if_neg hlt]
  by_cases heq : s = w.nextExpected
  · rw [if_pos heq]
    subst heq
    exact ⟨_, rfl, h.release hf hmax (type, data)⟩
  rw [if_neg heq]
  cases hl : w.buffer.lookup s with
  | some m =>
    rw [if_pos (by rfl)]
    refine ⟨[], rfl, ?_⟩
    rw [assign_of_isSome (by rw [h.buffered s m hl]; rfl), List.append_nil]
    exact h
  | none =>
    rw [if_neg (by simp)]
    by_cases hfull : w.maxBuffered.toNat ≤ w.buffer.entries.length
    · rw [if_pos hfull]
      refine ⟨[], rfl, ?_⟩
      rw [if_neg (by simp [Report.kept, fail]), assign_none, List.append_nil]
      exact h
    · rw [if_neg hfull]
      refine ⟨[], rfl, ?_⟩
      rw [List.append_nil]
      have hgt := UInt64.lt_of_le_of_ne (UInt64.not_lt.mp hlt) (Ne.symm heq)
      exact h.insert hgt hl (Nat.lt_of_not_le hfull) (type, data)

section Runs

variable {σ : Type} {deliver : UInt8 → Bytes → σ → Result Unit × σ}

theorem recording_succeeds (hd : ∀ type data s, (deliver type data s).1 = .ok ()) (type : UInt8)
    (data : Bytes) (s : σ × List BufferedMessage) : (recording deliver type data s).1 = .ok () :=
  hd type data s.1

theorem feed_recording (rel : List BufferedMessage) (s : σ × List BufferedMessage) :
    feed (recording deliver) rel s = (feed deliver rel s.1, s.2 ++ rel) := by
  induction rel generalizing s with
  | nil => simp [feed]
  | cons m rel ih =>
    have hcons := ih (recording deliver m.1 m.2 s).2
    simpa [feed, recording] using hcons

/-- The numbers of a run of calls are in step with the window and the list of deliveries. -/
theorem acceptAll_tracks (hd : ∀ type data s, (deliver type data s).1 = .ok ())
    (maxBuffered : UInt32) (calls : List Call)
    (hcalls : ∀ c ∈ calls, c.1 ≠ 0 ∧ c.1.toNat + 1 < 2 ^ 64) (t : σ) :
    Tracks (firstKept calls (acceptAll (recording deliver) calls { maxBuffered } (t, [])).1)
      (acceptAll (recording deliver) calls { maxBuffered } (t, [])).2.1
      (acceptAll (recording deliver) calls { maxBuffered } (t, [])).2.2.2 := by
  induction calls using List.reverseRecOn with
  | nil => exact tracks_fresh maxBuffered
  | append_singleton calls c ih =>
    have htracks := ih fun b hb => hcalls b (List.mem_append_left _ hb)
    obtain ⟨hs, hmax⟩ := hcalls c (by simp)
    have hf : ∀ n m, firstKept calls
        (acceptAll (recording deliver) calls { maxBuffered } (t, [])).1 n = some m →
          n + 1 < 2 ^ 64 := by
      intro n m hn
      obtain ⟨b, hb, rfl, -⟩ := mem_of_firstKept hn
      exact (hcalls b (List.mem_append_left _ hb)).2
    obtain ⟨rel, hfeed, hstep⟩ := htracks.acceptWith (recording_succeeds hd) hf hs hmax c.2.1 c.2.2
      (acceptAll (recording deliver) calls { maxBuffered } (t, [])).2.2
    rw [feed_recording] at hfeed
    rw [acceptAll_append]
    dsimp only
    rw [hfeed]
    convert hstep using 1
    funext n
    rw [firstKept_append (length_acceptAll _ _ _ _), assign]
    congr 1
    by_cases hn : c.1.toNat = n <;> simp [hn]

end Runs

/-- The flags and the failure of one call, in terms of the window before and after it. -/
theorem acceptWith_reports {σ : Type} {deliver : UInt8 → Bytes → σ → Result Unit × σ}
    (hd : ∀ type data s, (deliver type data s).1 = .ok ()) (h : Tracks f w out) (hs : s ≠ 0)
    (type : UInt8) (data : Bytes) (t : σ) :
    ((w.acceptWith deliver s type data t).1.buffered = true ↔
        w.buffer.lookup s = none ∧
          (w.acceptWith deliver s type data t).2.1.buffer.lookup s = some (type, data)) ∧
      ((w.acceptWith deliver s type data t).1.stale = true ↔
        s < w.nextExpected ∨ (w.buffer.lookup s).isSome) ∧
      ((w.acceptWith deliver s type data t).1.kept = false ↔
        w.nextExpected < s ∧ w.buffer.lookup s = none ∧
          w.maxBuffered.toNat ≤ w.buffer.entries.length) ∧
      ((w.acceptWith deliver s type data t).1.kept = false →
        (w.acceptWith deliver s type data t).2 = (w, t)) := by
  have hlookup := h.lookup_next
  rw [acceptWith_of_ne_zero hd h.ne_zero hs]
  by_cases hlt : s < w.nextExpected
  · have hge : ¬w.nextExpected < s := UInt64.not_lt.mpr (UInt64.le_of_lt hlt)
    have hnone : w.buffer.lookup s = none := by
      cases hl : w.buffer.lookup s with
      | none => rfl
      | some m => exact absurd (h.above s m hl) hge
    simp [hlt, hge, hnone, Report.kept]
  by_cases heq : s = w.nextExpected
  · subst heq
    have hnot : ∀ fuel m, (OrderedReceiveWindow.release fuel
        { w with nextExpected := w.nextExpected + 1 }).2.buffer.lookup w.nextExpected ≠ some m := by
      intro fuel m hm
      have hold := lookup_release hm
      change w.buffer.lookup w.nextExpected = some m at hold
      rw [hlookup] at hold
      cases hold
    simp [hlookup, hnot, Report.kept, UInt64.lt_irrefl]
  have hgt := UInt64.lt_of_le_of_ne (UInt64.not_lt.mp hlt) (Ne.symm heq)
  rw [if_neg hlt, if_neg heq]
  cases hl : w.buffer.lookup s with
  | some m => simp [Report.kept]
  | none =>
    by_cases hfull : w.maxBuffered.toNat ≤ w.buffer.entries.length
    · simp [hfull, hlt, hgt, hl, Report.kept, fail]
    · simp [hfull, hlt, Report.kept]

/-- Any sequence of calls, and then any further call: what was delivered is, number by number
and each once, the first message kept for it; the buffer holds only later numbers and no more
than it may; and the flags and the failure of the further call say what happened to it. -/
theorem ordered_window_spec {σ : Type} {deliver : UInt8 → Bytes → σ → Result Unit × σ}
    (hd : ∀ type data t, (deliver type data t).1 = .ok ()) (maxBuffered : UInt32)
    (calls : List Call) (hcalls : ∀ c ∈ calls, 1 ≤ c.1.toNat ∧ c.1.toNat ≤ 2 ^ 64 - 2) (t : σ)
    {reports : List Report} {w : OrderedReceiveWindow} {t' : σ} {delivered : List BufferedMessage}
    (hrun : acceptAll (recording deliver) calls { maxBuffered } (t, []) =
      (reports, w, t', delivered)) :
    w.nextExpected.toNat = delivered.length + 1 ∧
      (∀ i < delivered.length, delivered[i]? = firstKept calls reports (i + 1)) ∧
      (∀ s m, w.buffer.lookup s = some m → w.nextExpected < s) ∧
      w.buffer.entries.length ≤ maxBuffered.toNat ∧
      ∀ (s : UInt64) (type : UInt8) (data : Bytes), 1 ≤ s.toNat → s.toNat ≤ 2 ^ 64 - 2 →
        ((w.acceptWith deliver s type data t').1.buffered = true ↔
            w.buffer.lookup s = none ∧
              (w.acceptWith deliver s type data t').2.1.buffer.lookup s = some (type, data)) ∧
          ((w.acceptWith deliver s type data t').1.stale = true ↔
            s < w.nextExpected ∨ (w.buffer.lookup s).isSome) ∧
          ((w.acceptWith deliver s type data t').1.kept = false ↔
            w.nextExpected < s ∧ w.buffer.lookup s = none ∧
              maxBuffered.toNat ≤ w.buffer.entries.length) ∧
          ((w.acceptWith deliver s type data t').1.kept = false →
            (w.acceptWith deliver s type data t').2 = (w, t')) := by
  have hne : ∀ s : UInt64, 1 ≤ s.toNat → s ≠ 0 := by
    rintro s hs rfl
    exact absurd hs (by decide)
  have htracks := acceptAll_tracks hd maxBuffered calls
    (fun c hc => ⟨hne _ (hcalls c hc).1, by have := (hcalls c hc).2; omega⟩) t
  have hmax := acceptAll_maxBuffered (recording deliver) calls { maxBuffered } (t, [])
  rw [hrun] at htracks hmax
  dsimp only at htracks hmax
  have hcap := htracks.capacity
  rw [hmax] at hcap
  refine ⟨htracks.next, fun i hi => (htracks.released i hi).symm, htracks.above, hcap, ?_⟩
  intro s type data hs _
  have hreports := acceptWith_reports hd htracks (hne s hs) type data t'
  rw [hmax] at hreports
  exact hreports

def ignoring (_ : UInt8) (_ : Bytes) (t : Unit) : Result Unit × Unit := (.ok (), t)

/-- The second message arrives first and again, then the first. -/
theorem ordered_window_spec_swapped :
    acceptAll (recording ignoring) [(2, 7, [1]), (2, 9, [3]), (1, 8, [2])] { maxBuffered := 1 }
        ((), []) =
      ([⟨.ok (), true, false⟩, ⟨.ok (), false, true⟩, ⟨.ok (), false, false⟩],
        { nextExpected := 3, maxBuffered := 1 }, (), [(8, [2]), (7, [1])]) ∧
      ∀ i < 2, [((8 : UInt8), ([2] : Bytes)), (7, [1])][i]? =
        firstKept [(2, 7, [1]), (2, 9, [3]), (1, 8, [2])]
          [⟨.ok (), true, false⟩, ⟨.ok (), false, true⟩, ⟨.ok (), false, false⟩] (i + 1) := by
  have hrun : acceptAll (recording ignoring) [(2, 7, [1]), (2, 9, [3]), (1, 8, [2])]
      { maxBuffered := 1 } ((), []) =
      ([⟨.ok (), true, false⟩, ⟨.ok (), false, true⟩, ⟨.ok (), false, false⟩],
        { nextExpected := 3, maxBuffered := 1 }, (), [(8, [2]), (7, [1])]) := rfl
  exact ⟨hrun, (ordered_window_spec (fun _ _ _ => rfl) 1 _ (by decide) () hrun).2.1⟩

end OrderedReceiveWindow

end SecureCnet
