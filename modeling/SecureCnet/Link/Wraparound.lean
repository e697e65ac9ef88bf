import SecureCnet.Link.Run
import SecureCnet.Session.Wraparound

/-!
# Counters that wrap around

A run in which one end tries a send over and over that is refused after it drew its
numbers: only a counter moves, and the rest of the run can be followed as without them.
-/

namespace SecureCnet

variable {C : Crypto}

namespace Link

variable {l : Link}

/-- A link without the record of its calls, which no step looks at. -/
def unrecorded (l : Link) : Link :=
  ⟨{ l.left with sends := [] }, { l.right with sends := [] }⟩

theorem step_unrecorded (a : Action) (l : Link) :
    (l.step C a).unrecorded = (l.unrecorded.step C a).unrecorded := by
  have hstep : ∀ (w : List Bytes) (op : Op) (e : End),
      { e.step C w op with sends := [] } =
        { ({ e with sends := [] } : End).step C w op with sends := [] } := by
    intro w op e
    cases op with
    | receive i now =>
      rw [End.step_receive, End.step_receive]
      cases w[i]? <;> rfl
    | others net otherMemory =>
      rw [End.step_others, End.step_others]
      split_ifs <;> rfl
    | _ => rfl
  cases a with
  | left op => exact congrArg (Link.mk · _) (hstep _ op l.left)
  | right op => exact congrArg (Link.mk _ ·) (hstep _ op l.right)

theorem run_cons (a : Action) (actions : List Action) (l : Link) :
    l.run C (a :: actions) = (l.step C a).run C actions := rfl

theorem run_unrecorded (actions : List Action) (l : Link) :
    (l.run C actions).unrecorded = (l.unrecorded.run C actions).unrecorded := by
  induction actions generalizing l with
  | nil => rfl
  | cons a actions ih => rw [run_cons, run_cons, ih, step_unrecorded, ← ih]

/-- The left session is replaced. -/
def withLeft (s : Session) (l : Link) : Link :=
  { l with left := { l.left with party := { l.left.party with session := s } } }

/-- A send that only draws a number, over and over. -/
theorem run_replicate_send {o : SendOptions} {t : UInt8} {payload : Bytes} {now : UInt64}
    {draw : Session → Session} {I : Party → Prop}
    (hI : ∀ p, I p → (p.send C o t payload now).2 = p.mapSession draw ∧ I (p.mapSession draw))
    (h : I l.left.party) (n : ℕ) :
    (l.run C (List.replicate n (.left (.send o t payload now)))).unrecorded =
      (l.withLeft (draw^[n] l.left.party.session)).unrecorded := by
  induction n generalizing l with
  | zero => rfl
  | succ n ih =>
    obtain ⟨hsend, hnext⟩ := hI _ h
    have hstep : (l.step C (.left (.send o t payload now))).unrecorded =
        (l.withLeft (draw l.left.party.session)).unrecorded := by
      unfold unrecorded step End.step
      dsimp only
      rw [hsend]
      rfl
    rw [List.replicate_succ, run_cons, run_unrecorded, hstep, ← run_unrecorded,
      ih (l := l.withLeft (draw l.left.party.session)) hnext]
    rfl

theorem run_append_list (actions actions' : List Action) (l : Link) :
    l.run C (actions ++ actions') = (l.run C actions).run C actions' :=
  List.foldl_append

/-- What a run shows the receiver after such a stretch: only the counter has moved. -/
theorem run_laps {o : SendOptions} {t : UInt8} {payload : Bytes} {now : UInt64}
    {draw : Session → Session} {I : Party → Prop}
    (hI : ∀ p, I p → (p.send C o t payload now).2 = p.mapSession draw ∧ I (p.mapSession draw))
    {before : List Action} (h : I (l.run C before).left.party) (n : ℕ) (after : List Action) :
    (l.run C (before ++ List.replicate n (.left (.send o t payload now)) ++ after)).right.party =
      (((l.run C before).withLeft
        (draw^[n] (l.run C before).left.party.session)).unrecorded.run C after).right.party := by
  rw [run_append_list, run_append_list, ← run_replicate_send hI h n]
  exact congrArg (fun l => l.right.party) (run_unrecorded after _)

theorem run_sends_prefix (actions : List Action) (l : Link) :
    l.left.sends <+: (l.run C actions).left.sends := by
  induction actions generalizing l with
  | nil => exact List.prefix_refl _
  | cons a actions ih => exact (step_extends (C := C) a l).2.2.trans (ih _)

/-- Every record of a run is one of its calls. -/
theorem exists_send_of_mem {r : SendRecord} (actions : List Action) (l : Link)
    (h : r ∈ (l.run C actions).left.sends) :
    r ∈ l.left.sends ∨ ∃ now, .left (.send r.options r.type r.payload now) ∈ actions := by
  induction actions generalizing l with
  | nil => exact Or.inl h
  | cons a actions ih =>
    rcases ih _ h with hstep | ⟨now, hmem⟩
    · cases a with
      | right op => exact Or.inl hstep
      | left op =>
        cases op with
        | send o t payload now =>
          rcases List.mem_append.mp hstep with hold | hnew
          · exact Or.inl hold
          · obtain rfl := List.mem_singleton.mp hnew
            exact Or.inr ⟨now, List.mem_cons_self⟩
        | _ =>
          refine Or.inl ?_
          rwa [step, End.step_sends_eq l.right.wire (by simp)] at hstep
    · exact Or.inr ⟨now, List.mem_cons_of_mem _ hmem⟩

end Link

end SecureCnet
