import SecureCnet.Wire.Config
import Mathlib.Logic.Function.Iterate
import Mathlib.Logic.Relation

/-!
# Starting the async runner

`IoContext::run_async` starts a worker and waits until `_running` is set. The worker sets it on
entry of `run` and clears it on the way out, so a caller that does not look in between waits for
a flag nobody will set again.

Callbacks and services are arbitrary code over an environment `σ`; the two threads take one
critical section, or one call of such code, at a time.
-/

namespace SecureCnet

namespace IoContext

/-- What `_mutex` protects. -/
structure Shared (Code : Type) where
  posted : List Code := []
  services : List Code := []
  running : Bool := false
  stopRequested : Bool := false
  runResult : Result Unit := .ok ()

/-- The runtime, and what callbacks and services do when they are called. An exception is the
failure it is reported as. No operation of a running context touches its flag. -/
structure Setup (Code σ : Type) where
  runtime : Result Unit
  invoke : Code → Shared Code → σ → Result Unit × Shared Code × σ
  invoke_running : ∀ c s env, (invoke c s env).2.1.running = s.running

/-- Where the worker is. -/
inductive Worker (Code : Type)
  | absent
  | starting
  | top
  | draining (polled : Bool)
  | invoking (fn : Code) (polled : Bool)
  | copying
  | polling (services : List Code)
  | pausing
  | clearing (result : Result Unit)
  | storing (result : Result Unit)
  | finished

structure Thread (Code σ : Type) where
  shared : Shared Code
  env : σ
  worker : Worker Code

variable {Code σ : Type} (P : Setup Code σ) {shared : Shared Code}

/-- Call some code; the run goes on at `next` or ends with the failure. -/
def call (c : Code) (next : Worker Code) (t : Thread Code σ) : Thread Code σ :=
  match P.invoke c t.shared t.env with
  | (.ok (), shared, env) => ⟨shared, env, next⟩
  | (.error e, shared, env) => ⟨shared, env, .clearing (.error e)⟩

/-- One step of the worker: `run`, with `poll` and `drain_posted` in its loop. -/
def work (t : Thread Code σ) : Thread Code σ :=
  match t.worker with
  | .absent => t
  | .starting =>
    match P.runtime with
    | .error e => { t with worker := .storing (.error e) }
    | .ok () =>
      if t.shared.running then
        { t with worker := .storing (fail .stateError "IoContext is already running") }
      else
        { t with
          shared := { t.shared with stopRequested := false, running := true, runResult := .ok () }
          worker := .top }
  | .top =>
    if t.shared.stopRequested then { t with worker := .clearing (.ok ()) }
    else match P.runtime with
      | .error e => { t with worker := .clearing (.error e) }
      | .ok () => { t with worker := .draining false }
  | .draining polled =>
    match t.shared.posted with
    | [] => { t with worker := if polled then .pausing else .copying }
    | fn :: posted => { t with shared := { t.shared with posted }, worker := .invoking fn polled }
  | .invoking fn polled => call P fn (.draining polled) t
  | .copying => { t with worker := .polling t.shared.services }
  | .polling [] => { t with worker := .draining true }
  | .polling (service :: services) => call P service (.polling services) t
  -- The wait is over after a millisecond at the latest.
  | .pausing => { t with worker := .top }
  | .clearing result =>
    { t with
      shared := { t.shared with running := false, runResult := result }
      worker := .storing result }
  | .storing result =>
    { t with shared := { t.shared with runResult := result }, worker := .finished }
  | .finished => t

/-- Where the thread that calls `run_async` is. -/
inductive Caller
  | calling
  | spawning
  | waiting
  | returned (result : Result Unit)

structure World (Code σ : Type) where
  thread : Thread Code σ
  joinable : Bool
  caller : Caller

/-- The checks `run_async` begins with. -/
def check (w : World Code σ) : Caller :=
  match P.runtime with
  | .error e => .returned (.error e)
  | .ok () =>
    if w.thread.shared.running || w.joinable then
      .returned (fail .stateError "IoContext async runner is already active")
    else .spawning

inductive Step : World Code σ → World Code σ → Prop
  | check {w : World Code σ} (h : w.caller = .calling) : Step w { w with caller := check P w }
  | spawn {w : World Code σ} (h : w.caller = .spawning) :
      Step w ⟨{ w.thread with worker := .starting }, true, .waiting⟩
  | spawnFailed {w : World Code σ} (h : w.caller = .spawning) :
      Step w { w with
        caller := .returned (fail .internal "failed to start IoContext worker thread") }
  | wake {w : World Code σ} (h : w.caller = .waiting) (hrunning : w.thread.shared.running = true) :
      Step w { w with caller := .returned (.ok ()) }
  | work {w : World Code σ} : Step w { w with thread := work P w.thread }

def Reachable : World Code σ → World Code σ → Prop := Relation.ReflTransGen (Step P)

/-- The caller waits for a flag that nobody will set. -/
def World.Deadlocked (w : World Code σ) : Prop :=
  w.caller = .waiting ∧ w.thread.shared.running = false ∧ w.thread.worker = .finished

/-- A call of `run_async` on some context. -/
def start (shared : Shared Code) (env : σ) (joinable : Bool) : World Code σ :=
  ⟨⟨shared, env, .absent⟩, joinable, .calling⟩

/-- A worker started on this context comes to the end of `run`. -/
def Ends (shared : Shared Code) (env : σ) : Prop :=
  ∃ n, ((work P)^[n] ⟨shared, env, .starting⟩).worker = .finished

/-- The worker is past the entry of `run` and before its end. -/
def Worker.inLoop : Worker Code → Bool
  | .absent | .starting | .storing _ | .finished => false
  | _ => true

def Thread.Flagged (t : Thread Code σ) : Prop := t.shared.running = t.worker.inLoop

theorem flagged_call {c : Code} {next : Worker Code} {t : Thread Code σ}
    (hnext : next.inLoop = true) (h : t.shared.running = true) : (call P c next t).Flagged := by
  have hkeep := P.invoke_running c t.shared t.env
  unfold call
  generalize P.invoke c t.shared t.env = r at hkeep ⊢
  obtain ⟨rc, shared, env⟩ := r
  cases rc with
  | error e => exact hkeep.trans h
  | ok u => exact (hkeep.trans h).trans hnext.symm

theorem Thread.Flagged.work {t : Thread Code σ} (h : t.Flagged) : (work P t).Flagged := by
  obtain ⟨shared, env, worker⟩ := t
  cases worker with
  | starting =>
    have hoff : shared.running = false := h
    dsimp only [IoContext.work]
    cases P.runtime with
    | error e => exact h
    | ok u =>
      simp only [hoff]
      rfl
  | top =>
    dsimp only [IoContext.work]
    cases shared.stopRequested <;> cases P.runtime <;> exact h
  | draining polled =>
    dsimp only [IoContext.work]
    cases shared.posted with
    | nil => cases polled <;> exact h
    | cons fn posted => exact h
  | invoking fn polled => exact flagged_call P rfl h
  | polling services =>
    cases services with
    | nil => exact h
    | cons service services => exact flagged_call P rfl h
  | clearing result => rfl
  | absent | copying | pausing | storing | finished => exact h

theorem flagged_iterate {t : Thread Code σ} (h : t.Flagged) (n : ℕ) : ((work P)^[n] t).Flagged := by
  induction n with
  | zero => exact h
  | succ n ih =>
    rw [Function.iterate_succ_apply']
    exact ih.work P

/-- What a call of `run_async` has done by the time it gets to some point. -/
def World.Traced (shared : Shared Code) (env : σ) (joinable : Bool) (w : World Code σ) : Prop :=
  match w.caller with
  | .calling => w.thread = ⟨shared, env, .absent⟩ ∧ w.joinable = joinable
  | .spawning => w.thread = ⟨shared, env, .absent⟩ ∧
      P.runtime = .ok () ∧ shared.running = false ∧ joinable = false
  | .waiting => (P.runtime = .ok () ∧ shared.running = false ∧ joinable = false) ∧
      ∃ n, w.thread = (work P)^[n] ⟨shared, env, .starting⟩
  | .returned _ => True

theorem World.Traced.step {env : σ} {joinable : Bool} {w w' : World Code σ}
    (h : w.Traced P shared env joinable) (hstep : Step P w w') :
    w'.Traced P shared env joinable := by
  unfold World.Traced at h
  cases hstep with
  | check hcaller =>
    simp only [hcaller] at h
    obtain ⟨hthread, hjoinable⟩ := h
    unfold World.Traced IoContext.check
    cases hruntime : P.runtime with
    | error e => trivial
    | ok u =>
      simp only [hthread, hjoinable]
      split_ifs with hactive
      · trivial
      · rw [Bool.or_eq_true, not_or, Bool.not_eq_true, Bool.not_eq_true] at hactive
        exact ⟨trivial, trivial, hactive⟩
  | spawn hcaller =>
    simp only [hcaller] at h
    obtain ⟨hthread, hinactive⟩ := h
    exact ⟨hinactive, 0, by rw [hthread]; rfl⟩
  | spawnFailed hcaller => trivial
  | wake hcaller hrunning => trivial
  | work =>
    unfold World.Traced
    cases hcaller : w.caller with
    | calling =>
      simp only [hcaller] at h ⊢
      obtain ⟨hthread, hjoinable⟩ := h
      exact ⟨by rw [hthread]; rfl, hjoinable⟩
    | spawning =>
      simp only [hcaller] at h ⊢
      obtain ⟨hthread, hinactive⟩ := h
      exact ⟨by rw [hthread]; rfl, hinactive⟩
    | waiting =>
      simp only [hcaller] at h ⊢
      obtain ⟨hinactive, n, hthread⟩ := h
      exact ⟨hinactive, n + 1, by rw [hthread, Function.iterate_succ_apply']⟩
    | returned rc => trivial

theorem Reachable.traced {env : σ} {joinable : Bool} {w : World Code σ}
    (h : Reachable P (start shared env joinable) w) : w.Traced P shared env joinable := by
  induction h with
  | refl => exact ⟨rfl, rfl⟩
  | tail _ hstep ih => exact ih.step P hstep

theorem reachable_waiting {env : σ} (hruntime : P.runtime = .ok ())
    (hrunning : shared.running = false) (n : ℕ) :
    Reachable P (start shared env false) ⟨(work P)^[n] ⟨shared, env, .starting⟩, true, .waiting⟩ := by
  induction n with
  | zero =>
    have hcheck : Step P (start shared env false) ⟨⟨shared, env, .absent⟩, false, .spawning⟩ := by
      have h := Step.check (P := P) (w := start shared env false) rfl
      simpa [check, start, hruntime, hrunning] using h
    exact .tail (.single hcheck) (.spawn rfl)
  | succ n ih =>
    rw [Function.iterate_succ_apply']
    exact .tail ih .work

/-- A call of `run_async` can be left waiting exactly when it starts a worker whose run ends. -/
theorem runAsync_never_deadlocks_iff (shared : Shared Code) (env : σ) (joinable : Bool) :
    (∀ w, Reachable P (start shared env joinable) w → ¬w.Deadlocked) ↔
      P.runtime ≠ .ok () ∨ shared.running = true ∨ joinable = true ∨ ¬Ends P shared env := by
  constructor
  · intro h
    by_contra hcond
    simp only [not_or, not_not, Bool.not_eq_true] at hcond
    obtain ⟨hruntime, hrunning, rfl, n, hfinished⟩ := hcond
    refine h _ (reachable_waiting P hruntime hrunning n) ⟨rfl, ?_, hfinished⟩
    have hflag := flagged_iterate P (t := ⟨shared, env, .starting⟩) hrunning n
    rw [Thread.Flagged, hfinished] at hflag
    exact hflag
  · rintro hcond w hreach ⟨hcaller, -, hfinished⟩
    have htraced := hreach.traced
    unfold World.Traced at htraced
    rw [hcaller] at htraced
    obtain ⟨⟨hruntime, hrunning, hjoinable⟩, n, hthread⟩ := htraced
    rcases hcond with h | h | h | h
    · exact h hruntime
    · rw [hrunning] at h
      cases h
    · rw [hjoinable] at h
      cases h
    · rw [hthread] at hfinished
      exact h ⟨n, hfinished⟩

/-- A context whose only code throws. -/
def throwing : Setup Unit Unit where
  runtime := .ok ()
  invoke _ shared env := (fail .internal "posted callback threw", shared, env)
  invoke_running _ _ _ := rfl

/-- One posted callback throws in the first poll, before the caller looks at the flag. -/
theorem runAsync_deadlocks :
    ∃ w, Reachable throwing (start { posted := [()] } () false) w ∧ w.Deadlocked := by
  exact ⟨_, reachable_waiting throwing rfl rfl 6, rfl, rfl, rfl⟩

end IoContext

end SecureCnet
