import Mathlib.Data.List.AList
import SecureCnet.Wire.Message

/-!
# The ordered receive window

Messages of the ordered channel are released in the order of their sequence
numbers; later ones wait in a bounded buffer. `acceptWith` is the call with its
callback and flags. The only release callback of the library emits the message and
always succeeds, and nothing but statistics reads the flags, so the session code uses
`accept`, which returns the list of messages it released.
-/

namespace SecureCnet

/-- A message waiting for its turn: type and payload. -/
abbrev BufferedMessage := UInt8 × Bytes

structure OrderedReceiveWindow where
  nextExpected : UInt64 := 1
  maxBuffered : UInt32 := 64
  buffer : AList fun _ : UInt64 => BufferedMessage := ∅
  deriving DecidableEq

namespace OrderedReceiveWindow

/-- Release buffered messages while the next one is there; `fuel` bounds the buffer size. -/
def release : ℕ → OrderedReceiveWindow → List BufferedMessage × OrderedReceiveWindow
  | 0, w => ([], w)
  | fuel + 1, w =>
    match w.buffer.lookup w.nextExpected with
    | none => ([], w)
    | some m =>
      let (out, w) := release fuel
        { w with nextExpected := w.nextExpected + 1, buffer := w.buffer.erase w.nextExpected }
      (m :: out, w)

def accept (deliverySequence : UInt64) (type : UInt8) (data : Bytes)
    (w : OrderedReceiveWindow) : Result (List BufferedMessage) × OrderedReceiveWindow :=
  if deliverySequence = 0 then (fail .badPacket "ordered sequence must be non-zero", w)
  else
    let w := if w.nextExpected = 0 then { w with nextExpected := 1 } else w
    if deliverySequence < w.nextExpected then (.ok [], w)
    else if deliverySequence = w.nextExpected then
      let (out, w) := release w.buffer.entries.length { w with nextExpected := w.nextExpected + 1 }
      (.ok ((type, data) :: out), w)
    else if (w.buffer.lookup deliverySequence).isSome then (.ok [], w)
    else if w.maxBuffered.toNat ≤ w.buffer.entries.length then
      (fail .queueFull "ordered receive buffer is full", w)
    else (.ok [], { w with buffer := w.buffer.insert deliverySequence (type, data) })

/-- The result of `acceptWith` and its two flags. -/
structure Report where
  rc : Result Unit
  buffered : Bool := false
  stale : Bool := false
  deriving DecidableEq

section Callback

variable {σ : Type} (deliver : UInt8 → Bytes → σ → Result Unit × σ)

/-- The loop of `release` with a callback that may fail. -/
def releaseWith : ℕ → OrderedReceiveWindow → σ → Result Unit × OrderedReceiveWindow × σ
  | 0, w, s => (.ok (), w, s)
  | fuel + 1, w, s =>
    match w.buffer.lookup w.nextExpected with
    | none => (.ok (), w, s)
    | some m =>
      match deliver m.1 m.2 s with
      | (.error e, s) => (.error e, w, s)
      | (.ok (), s) => releaseWith fuel
          { w with nextExpected := w.nextExpected + 1, buffer := w.buffer.erase w.nextExpected } s

def acceptWith (deliverySequence : UInt64) (type : UInt8) (data : Bytes)
    (w : OrderedReceiveWindow) (s : σ) : Report × OrderedReceiveWindow × σ :=
  if deliverySequence = 0 then
    ({ rc := fail .badPacket "ordered sequence must be non-zero" }, w, s)
  else
    let w := if w.nextExpected = 0 then { w with nextExpected := 1 } else w
    if deliverySequence < w.nextExpected then ({ rc := .ok (), stale := true }, w, s)
    else if deliverySequence = w.nextExpected then
      match deliver type data s with
      | (.error e, s) => ({ rc := .error e }, w, s)
      | (.ok (), s) =>
        let (rc, w, s) := releaseWith deliver w.buffer.entries.length
          { w with nextExpected := w.nextExpected + 1 } s
        ({ rc }, w, s)
    else if (w.buffer.lookup deliverySequence).isSome then
      ({ rc := .ok (), stale := true }, w, s)
    else if w.maxBuffered.toNat ≤ w.buffer.entries.length then
      ({ rc := fail .queueFull "ordered receive buffer is full" }, w, s)
    else
      ({ rc := .ok (), buffered := true },
        { w with buffer := w.buffer.insert deliverySequence (type, data) }, s)

theorem releaseWith_maxBuffered (fuel : ℕ) (w : OrderedReceiveWindow) (s : σ) :
    (releaseWith deliver fuel w s).2.1.maxBuffered = w.maxBuffered := by
  induction fuel generalizing w s with
  | zero => rfl
  | succ fuel ih =>
    unfold releaseWith
    cases w.buffer.lookup w.nextExpected with
    | none => rfl
    | some m =>
      dsimp only
      cases deliver m.1 m.2 s with
      | mk rc s' =>
        cases rc with
        | error e => rfl
        | ok u => exact ih _ s'

theorem acceptWith_maxBuffered (seq : UInt64) (type : UInt8) (data : Bytes)
    (w : OrderedReceiveWindow) (s : σ) :
    (acceptWith deliver seq type data w s).2.1.maxBuffered = w.maxBuffered := by
  have hw : (if w.nextExpected = 0 then { w with nextExpected := 1 } else w).maxBuffered =
      w.maxBuffered := by split_ifs <;> rfl
  unfold acceptWith
  by_cases hseq : seq = 0
  · rw [if_pos hseq]
  rw [if_neg hseq]
  dsimp only
  generalize (if w.nextExpected = 0 then { w with nextExpected := 1 } else w) = w' at hw ⊢
  rw [← hw]
  split_ifs
  · rfl
  · cases deliver type data s with
    | mk rc s' =>
      cases rc with
      | error e => rfl
      | ok u => exact releaseWith_maxBuffered deliver _ _ s'
  all_goals rfl

/-- A callback run over a list of messages. -/
def feed (out : List BufferedMessage) (s : σ) : σ :=
  out.foldl (fun s m => (deliver m.1 m.2 s).2) s

variable {deliver}

theorem releaseWith_eq (hd : ∀ type data s, (deliver type data s).1 = .ok ()) (fuel : ℕ)
    (w : OrderedReceiveWindow) (s : σ) :
    releaseWith deliver fuel w s =
      (.ok (), (release fuel w).2, feed deliver (release fuel w).1 s) := by
  induction fuel generalizing w s with
  | zero => rfl
  | succ fuel ih =>
    unfold releaseWith release
    cases w.buffer.lookup w.nextExpected with
    | none => rfl
    | some m =>
      have hrc := hd m.1 m.2 s
      dsimp only
      cases hm : deliver m.1 m.2 s with
      | mk rc s' =>
        rw [hm] at hrc
        subst hrc
        dsimp only
        rw [ih]
        simp [feed, hm]

/-- The messages a call released. -/
def released : Result (List BufferedMessage) → List BufferedMessage
  | .ok out => out
  | .error _ => []

/-- With a callback that always succeeds the call is `accept`. -/
theorem acceptWith_eq (hd : ∀ type data s, (deliver type data s).1 = .ok ()) (seq : UInt64)
    (type : UInt8) (data : Bytes) (w : OrderedReceiveWindow) (s : σ) :
    (acceptWith deliver seq type data w s).1.rc = (w.accept seq type data).1.map (fun _ => ()) ∧
      (acceptWith deliver seq type data w s).2 =
        ((w.accept seq type data).2, feed deliver (released (w.accept seq type data).1) s) := by
  unfold acceptWith accept
  by_cases hseq : seq = 0
  · simp [hseq, fail, released, feed, Except.map]
  rw [if_neg hseq, if_neg hseq]
  dsimp only
  generalize (if w.nextExpected = 0 then { w with nextExpected := 1 } else w) = w
  split_ifs
  · exact ⟨rfl, rfl⟩
  · have hrc := hd type data s
    cases hm : deliver type data s with
    | mk rc s' =>
      rw [hm] at hrc
      subst hrc
      dsimp only
      rw [releaseWith_eq hd]
      simp [released, feed, hm, Except.map]
  · exact ⟨rfl, rfl⟩
  · exact ⟨rfl, rfl⟩
  · exact ⟨rfl, rfl⟩

end Callback

def clear (w : OrderedReceiveWindow) : OrderedReceiveWindow :=
  { w with nextExpected := 1, buffer := ∅ }

variable {s : UInt64}

/-- The decision of `accept` once the window expects some number. -/
theorem accept_of_ne_zero {w : OrderedReceiveWindow} (hw : w.nextExpected ≠ 0) (hs : s ≠ 0)
    (type : UInt8) (data : Bytes) :
    w.accept s type data =
      if s < w.nextExpected then (.ok [], w)
      else if s = w.nextExpected then
        (.ok ((type, data) :: (release w.buffer.entries.length
            { w with nextExpected := w.nextExpected + 1 }).1),
          (release w.buffer.entries.length { w with nextExpected := w.nextExpected + 1 }).2)
      else if (w.buffer.lookup s).isSome then (.ok [], w)
      else if w.maxBuffered.toNat ≤ w.buffer.entries.length then
        (fail .queueFull "ordered receive buffer is full", w)
      else (.ok [], { w with buffer := w.buffer.insert s (type, data) }) := by
  unfold accept
  rw [if_neg hs]
  simp only [hw, if_false]

/-- The number `accept` compares with. -/
def expected (w : OrderedReceiveWindow) : UInt64 := if w.nextExpected = 0 then 1 else w.nextExpected

/-- The message is due, or it waits already, or there is room for it to wait. -/
def HasSlot (s : UInt64) (m : BufferedMessage) (w : OrderedReceiveWindow) : Prop :=
  s ≤ w.expected ∨ w.buffer.lookup s = some m ∨
    (w.buffer.lookup s = none ∧ w.buffer.entries.length < w.maxBuffered.toNat)

instance (s : UInt64) (m : BufferedMessage) (w : OrderedReceiveWindow) :
    Decidable (w.HasSlot s m) :=
  inferInstanceAs (Decidable (_ ∨ _))

theorem expected_ne_zero (w : OrderedReceiveWindow) : w.expected ≠ 0 := by
  unfold expected
  split_ifs with h
  · decide
  · exact h

theorem accept_expected (hs : s ≠ 0) (type : UInt8) (data : Bytes) (w : OrderedReceiveWindow) :
    w.accept s type data = ({ w with nextExpected := w.expected }).accept s type data := by
  unfold accept expected
  by_cases h : w.nextExpected = 0 <;> simp [h, hs]

theorem lt_expected_iff (hs : s ≠ 0) (w : OrderedReceiveWindow) :
    s < w.expected ↔ s < w.nextExpected := by
  have hpos : s.toNat ≠ 0 := fun h => hs (UInt64.toNat_inj.mp h)
  unfold expected
  split_ifs with h
  · rw [h, UInt64.lt_iff_toNat_lt, UInt64.lt_iff_toNat_lt]
    simp
    omega
  · rfl

/-- A message survives its call exactly when it has a slot. -/
theorem accept_kept_iff (hs : s ≠ 0) (type : UInt8) (data : Bytes) (w : OrderedReceiveWindow) :
    ((∃ out, (w.accept s type data).1 = .ok out ∧ (type, data) ∈ out) ∨ s < w.nextExpected ∨
        (w.accept s type data).2.buffer.lookup s = some (type, data)) ↔
      w.HasSlot s (type, data) := by
  rw [← lt_expected_iff hs, accept_expected hs, accept_of_ne_zero (by exact w.expected_ne_zero) hs,
    HasSlot]
  dsimp only
  by_cases hlt : s < w.expected
  · simp [hlt, UInt64.le_of_lt hlt]
  by_cases heq : s = w.expected
  · simp [heq]
  have hgt : ¬s ≤ w.expected := by
    rw [UInt64.le_iff_lt_or_eq]
    exact not_or.mpr ⟨hlt, heq⟩
  rw [if_neg hlt, if_neg heq]
  cases hl : w.buffer.lookup s with
  | some m => simp [hlt, hgt, hl]
  | none =>
    by_cases hfull : w.maxBuffered.toNat ≤ w.buffer.entries.length
    · simp [hlt, hgt, hl, hfull, fail]
    · simp [hlt, hgt, hfull]
      omega

/-- Only a full buffer makes `accept` fail on a proper number. -/
theorem accept_error (hs : s ≠ 0) {type : UInt8} {data : Bytes} {w : OrderedReceiveWindow}
    {e : Failure} (h : (w.accept s type data).1 = .error e) : e.code = .queueFull := by
  rw [accept_expected hs, accept_of_ne_zero (by exact w.expected_ne_zero) hs] at h
  split_ifs at h
  all_goals cases h
  rfl

/-- Every message the window has released or holds is the one `f` gives its number. -/
structure Agrees (f : ℕ → Option BufferedMessage) (w : OrderedReceiveWindow)
    (out : List BufferedMessage) : Prop where
  next : w.nextExpected.toNat = out.length + 1
  released : ∀ i < out.length, f (i + 1) = out[i]?
  buffered : ∀ s m, w.buffer.lookup s = some m → f s.toNat = some m

variable {f : ℕ → Option BufferedMessage} {w : OrderedReceiveWindow} {out : List BufferedMessage}

theorem agrees_fresh (f : ℕ → Option BufferedMessage) (maxBuffered : UInt32) :
    Agrees f { maxBuffered } [] where
  next := rfl
  released := by simp
  buffered := by simp

theorem Agrees.mono {g : ℕ → Option BufferedMessage} (h : Agrees f w out)
    (hfg : ∀ n m, f n = some m → g n = some m) : Agrees g w out where
  next := h.next
  released := by
    intro i hi
    have hf := h.released i hi
    rw [List.getElem?_eq_getElem hi] at hf ⊢
    exact hfg _ _ hf
  buffered := fun s m hs => hfg _ _ (h.buffered s m hs)

/-- One released message extends the output. -/
theorem Agrees.push (h : Agrees f w out) {m : BufferedMessage}
    {b : AList fun _ : UInt64 => BufferedMessage} (hm : f w.nextExpected.toNat = some m)
    (hb : ∀ s x, b.lookup s = some x → f s.toNat = some x)
    (hmax : w.nextExpected.toNat + 1 < 2 ^ 64) :
    Agrees f { w with nextExpected := w.nextExpected + 1, buffer := b } (out ++ [m]) where
  next := by
    have hadd : (w.nextExpected + 1).toNat = w.nextExpected.toNat + 1 := by
      rw [UInt64.toNat_add]
      exact Nat.mod_eq_of_lt hmax
    simp [hadd, h.next]
  released := by
    intro i hi
    rw [List.length_append, List.length_singleton] at hi
    rcases Nat.lt_succ_iff_lt_or_eq.mp hi with hlt | heq
    · rw [List.getElem?_append_left hlt]
      exact h.released i hlt
    · subst heq
      rw [List.getElem?_append_right (le_refl _), ← h.next]
      simpa using hm
  buffered := hb

variable {N : ℕ}

/-- The release loop keeps the agreement; `N` bounds the numbers that have a meaning. -/
theorem release_agrees (hf : ∀ n m, f n = some m → n < N) (hN : N < 2 ^ 64) (fuel : ℕ)
    (h : Agrees f w out) : Agrees f (release fuel w).2 (out ++ (release fuel w).1) := by
  induction fuel generalizing w out with
  | zero => simpa [release] using h
  | succ fuel ih =>
    unfold release
    cases hl : w.buffer.lookup w.nextExpected with
    | none => simpa using h
    | some m =>
      have hm := h.buffered _ _ hl
      have hpush := h.push (b := w.buffer.erase w.nextExpected) hm (by
        intro s x hx
        by_cases hs : s = w.nextExpected
        · subst hs
          simp at hx
        · rw [AList.lookup_erase_ne hs] at hx
          exact h.buffered s x hx) (by have := hf _ _ hm; omega)
      have := ih hpush
      simpa using this

/-- Accepting the message that belongs to a number keeps the agreement. -/
theorem accept_agrees (hf : ∀ n m, f n = some m → n < N) (hN : N < 2 ^ 64) (h : Agrees f w out)
    {type : UInt8} {data : Bytes} (hs : f s.toNat = some (type, data)) :
    ∃ rel, ((w.accept s type data).1 = .ok rel ∨
        ((∃ e, (w.accept s type data).1 = .error e) ∧ rel = [])) ∧
      Agrees f (w.accept s type data).2 (out ++ rel) := by
  have hne : w.nextExpected ≠ 0 := by
    intro h0
    have := h.next
    simp [h0] at this
  unfold accept
  by_cases hs0 : s = 0
  · exact ⟨[], Or.inr ⟨⟨_, by rw [if_pos hs0]; rfl⟩, rfl⟩, by simpa [hs0] using h⟩
  rw [if_neg hs0]
  simp only [hne, if_false]
  by_cases hlt : s < w.nextExpected
  · exact ⟨[], Or.inl (by rw [if_pos hlt]), by simpa [hlt] using h⟩
  rw [if_neg hlt]
  by_cases heq : s = w.nextExpected
  · subst heq
    have hpush := h.push (b := w.buffer) hs h.buffered (by have := hf _ _ hs; omega)
    have hrel := release_agrees hf hN w.buffer.entries.length hpush
    refine ⟨_, Or.inl (by rw [if_pos rfl]), ?_⟩
    simpa using hrel
  rw [if_neg heq]
  by_cases hin : (w.buffer.lookup s).isSome = true
  · exact ⟨[], Or.inl (by rw [if_pos hin]), by simpa [hin] using h⟩
  rw [if_neg hin]
  by_cases hfull : w.maxBuffered.toNat ≤ w.buffer.entries.length
  · exact ⟨[], Or.inr ⟨⟨_, by rw [if_pos hfull]; rfl⟩, rfl⟩, by simpa [hfull] using h⟩
  rw [if_neg hfull]
  refine ⟨[], Or.inl rfl, ?_⟩
  rw [List.append_nil]
  refine ⟨h.next, h.released, ?_⟩
  intro t m ht
  by_cases hts : t = s
  · subst hts
    rw [AList.lookup_insert] at ht
    rw [hs, ht]
  · rw [AList.lookup_insert_ne hts] at ht
    exact h.buffered t m ht

end OrderedReceiveWindow

end SecureCnet
