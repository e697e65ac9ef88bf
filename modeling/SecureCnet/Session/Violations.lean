import SecureCnet.Session.Continuity
import SecureCnet.Session.Deliver

/-!
# Frames behind a violation

A frame that breaks the protocol makes a server session call `close_session`, which
takes it from `Established` to `Closing`. The frame loop stops at `Closed` only, so
the frames behind the faulty one are dispatched all the same.
-/

namespace SecureCnet

def MsgView.WellFormed (msg : MsgView) : Prop := msg.data.length < 2 ^ 16

instance (msg : MsgView) : Decidable msg.WellFormed := inferInstanceAs (Decidable (_ < _))

/-- How the loop of `dispatch_message_payload` ends. -/
inductive LoopEnd
  | endOfStream
  | failed (e : Failure)
  | closed
  deriving DecidableEq

/-- The exit a failed `read_message` leads to. -/
def LoopEnd.ofFailure (e : Failure) : LoopEnd :=
  if e.code = .endOfStream then .endOfStream else .failed e

namespace Party

variable {C : Crypto} {now : UInt64} {p p' q : Party} {config : ServerConfig}

theorem SameState.refl (p : Party) : p.SameState p := ⟨rfl, rfl⟩

theorem SameState.trans (h : p.SameState p') (h' : p'.SameState q) : p.SameState q :=
  ⟨h'.side.trans h.side, h'.state.trans h.state⟩

/-- Session code has kept the state, or ended in a call of `close_session`. -/
inductive Handled (C : Crypto) (now : UInt64) (p : Party) : Party → Prop
  | kept {p' : Party} (h : p.SameState p') : Handled C now p p'
  | closing {q : Party} (reason : CloseReason) (h : p.SameState q) :
      Handled C now p (q.closeSession C now reason)

theorem SameState.handled (h : p.SameState q) (h' : q.Handled C now p') : p.Handled C now p' := by
  cases h' with
  | kept hk => exact .kept (h.trans hk)
  | closing reason hk => exact .closing reason (h.trans hk)

theorem Handled.state (h : p.Handled C now p') :
    p'.session.state = p.session.state ∨
      p'.session.state = if p.session.state = .closed then .closed else .closing := by
  cases h with
  | kept h => exact Or.inl h.state
  | closing reason h => exact Or.inr (by rw [closeSession_state, h.state])

theorem Handled.ne_closed (h : p.Handled C now p') (hp : p.session.state ≠ .closed) :
    p'.session.state ≠ .closed := by
  rcases h.state with hs | hs
  · rwa [hs]
  · rw [hs, if_neg hp]
    decide

theorem Handled.side_eq (h : p.Handled C now p') : p'.side = p.side := by
  cases h with
  | kept h => exact h.side
  | closing reason h =>
    obtain ⟨n, st, es, net, heq, -⟩ := closeSession_eq (C := C) now reason _
    rw [heq]
    exact h.side

theorem deliver_sameState (ch : Channel) (t : UInt8) (d : Bytes) (seq : UInt64) (p : Party) :
    p.SameState (p.onSession (Session.deliverApplicationMessage ch t d seq)).2 := by
  obtain ⟨ordered, sequenced, es, h, -⟩ := deliver_shape ch t d seq p
  rw [h]
  exact ⟨rfl, rfl⟩

theorem handleFragmentPayload_sameState (now : UInt64) (f : FragmentView) (p : Party) :
    p.SameState (p.handleFragmentPayload now f).2 := by
  obtain ⟨ordered, sequenced, reassembler, es, h, -⟩ := handleFragmentPayload_shape now f p
  rw [h]
  exact ⟨rfl, rfl⟩

section

variable (hside : p.side = .server config)
include hside

theorem violation_handled (now : UInt64) (reason : CloseReason) :
    p.Handled C now (p.violation C now reason) := by
  unfold violation
  rw [hside]
  exact .closing reason (.refl p)

theorem orViolation_handled (reason : CloseReason) {r : Result Unit × Party}
    (h : p.SameState r.2) : p.Handled C now (orViolation C now reason r) := by
  obtain ⟨rc, q⟩ := r
  cases rc with
  | ok u => exact .kept h
  | error e => exact h.handled (violation_handled (h.side.trans hside) now reason)

theorem dispatchAck_handled (now : UInt64) (data : Bytes) :
    p.Handled C now (p.dispatchAck C now data) := by
  unfold dispatchAck
  cases readReliableAck data with
  | error e => exact violation_handled hside now _
  | ok ci =>
    dsimp only
    split_ifs
    · exact .kept ⟨rfl, Session.setReliable_state _ _ _⟩
    · exact .kept ⟨rfl, Session.setReliable_state _ _ _⟩

theorem dispatchUserData_handled (now : UInt64) (ch : Channel) (id : UInt64) (t : UInt8)
    (data : Bytes) : p.Handled C now (p.dispatchUserData C now ch id t data) := by
  have hdeliver : ∀ c d seq, p.Handled C now (orViolation C now .protocolError
      ((p.log (.passed ch id t d)).onSession (Session.deliverApplicationMessage c t d seq))) := by
    intro c d seq
    exact orViolation_handled hside _ ⟨rfl, (deliver_sameState c t d seq _).state⟩
  unfold dispatchUserData
  split_ifs
  · cases readOrderedPayload data with
    | error e => exact violation_handled hside now _
    | ok su => exact hdeliver _ _ _
  · exact hdeliver _ _ _

theorem dispatchBody_handled (now : UInt64) (ch : Channel) (id : UInt64) (t : UInt8)
    (data : Bytes) : p.Handled C now (p.dispatchBody C now ch id t data) := by
  unfold dispatchBody
  split_ifs
  · cases readFragmentPayload data with
    | error e => exact dispatchUserData_handled hside now ch id t data
    | ok f => exact orViolation_handled hside _ (handleFragmentPayload_sameState now f p)
  · exact dispatchUserData_handled hside now ch id t data

theorem dispatchReliable_handled (now : UInt64) (msg : MsgView) :
    p.Handled C now (p.dispatchReliable C now msg) := by
  cases hr : readReliablePayload msg.data with
  | error e =>
    unfold dispatchReliable
    rw [hr]
    exact violation_handled hside now _
  | ok idd =>
    obtain ⟨id, data⟩ := idd
    have hacc := accepting_spec (C := C) msg.channel id p
    have hsame : p.SameState (p.accepting C msg.channel id) := ⟨hacc.side, hacc.state⟩
    rw [dispatchReliable_eq msg now hr]
    split_ifs
    · exact hsame.handled (dispatchBody_handled (hacc.side.trans hside) now _ _ _ _)
    · exact .kept hsame

/-- One frame keeps the state of a server session or closes it. -/
theorem dispatchMessageFrame_handled (now : UInt64) (msg : MsgView) :
    p.Handled C now (p.dispatchMessageFrame C now msg) := by
  obtain ⟨ch, t, d⟩ := msg
  unfold dispatchMessageFrame
  cases ch with
  | unreliable => exact orViolation_handled hside _ (deliver_sameState _ _ _ _ p)
  | reliable => exact dispatchReliable_handled hside now _
  | reliableOrdered => exact dispatchReliable_handled hside now _
  | sequencedUnreliable =>
    dsimp only
    cases readSequencedPayload d with
    | error e => exact violation_handled hside now _
    | ok sd => exact orViolation_handled hside _ (deliver_sameState _ _ _ _ p)
  | control =>
    dsimp only [dispatchControl]
    split_ifs
    · exact dispatchAck_handled hside now d
    · cases readFragmentPayload d with
      | error e => exact violation_handled hside now _
      | ok f => exact orViolation_handled hside _ (handleFragmentPayload_sameState now f p)
    · exact violation_handled hside now _

end

/-! ### The frame loop -/

variable (C now)

/-- A party after some frames. -/
def afterFrames (msgs : List MsgView) (p : Party) : Party :=
  msgs.foldl (fun p msg => p.dispatchMessageFrame C now msg) p

/-- A party after the loop has ended. -/
def leave (ending : LoopEnd) (p : Party) : Party :=
  match ending with
  | .failed _ => p.violation C now .invalidPacket
  | .endOfStream | .closed => p

/-- The record of the loop: the frames it reads and hands to `dispatch_message_frame`, what it
leaves unread and how it ends. -/
def readLoop : ℕ → Bytes → Party → Option (List MsgView × Bytes × LoopEnd)
  | 0, _, _ => none
  | fuel + 1, r, p =>
    match readMessage r with
    | .error e => some ([], r, .ofFailure e)
    | .ok (msg, r) =>
      let p := p.dispatchMessageFrame C now msg
      if p.session.state = .closed then some ([msg], r, .closed)
      else (readLoop fuel r p).map fun (msgs, rest, ending) => (msg :: msgs, rest, ending)

/-- None of the frames leaves the session closed. -/
def StaysOpen (msgs : List MsgView) (p : Party) : Prop :=
  ∀ k < msgs.length, (p.afterFrames C now (msgs.take (k + 1))).session.state ≠ .closed

/-- Handling the frame makes the session call `close_session`. -/
def Violates (msg : MsgView) (p : Party) : Prop :=
  ∃ q reason, p.SameState q ∧ p.dispatchMessageFrame C now msg = q.closeSession C now reason

variable {C now} {msgs : List MsgView} {msg : MsgView} {rest r : Bytes} {e : Failure} {fuel : ℕ}
  {ending : LoopEnd}

/-- The loop does to the session what the recorded frames do one after the other, and leaves as
recorded. -/
theorem dispatchFrames_eq (h : p.readLoop C now fuel r = some (msgs, rest, ending)) :
    p.dispatchFrames C now fuel r = (p.afterFrames C now msgs).leave C now ending := by
  induction fuel generalizing r p msgs with
  | zero => cases h
  | succ fuel ih =>
    unfold readLoop at h
    unfold dispatchFrames
    cases hread : readMessage r with
    | error e =>
      simp only [hread, Option.some.injEq, Prod.mk.injEq] at h
      obtain ⟨rfl, -, rfl⟩ := h
      dsimp only [LoopEnd.ofFailure]
      split_ifs <;> rfl
    | ok mr =>
      simp only [hread] at h
      dsimp only
      split_ifs at h ⊢ with hclosed
      · cases h
        rfl
      · obtain ⟨⟨msgs', rest', ending'⟩, hrest, heq⟩ := Option.map_eq_some_iff.mp h
        cases heq
        exact ih hrest

theorem StaysOpen.head (h : p.StaysOpen C now (msg :: msgs)) :
    (p.dispatchMessageFrame C now msg).session.state ≠ .closed :=
  h 0 (Nat.succ_pos _)

theorem StaysOpen.tail (h : p.StaysOpen C now (msg :: msgs)) :
    (p.dispatchMessageFrame C now msg).StaysOpen C now msgs :=
  fun k hk => h (k + 1) (Nat.succ_lt_succ hk)

/-- While the session stays open the loop reads every frame. -/
theorem readLoop_of_open (hmsgs : ∀ msg ∈ msgs, msg.WellFormed)
    (hstop : readMessage rest = .error e) (hopen : p.StaysOpen C now msgs)
    (hfuel : msgs.length < fuel) :
    p.readLoop C now fuel (msgs.flatMap MsgView.encode ++ rest) =
      some (msgs, rest, .ofFailure e) := by
  induction msgs generalizing fuel p with
  | nil =>
    obtain ⟨fuel, rfl⟩ := Nat.exists_eq_succ_of_ne_zero (Nat.ne_of_gt hfuel)
    simp [readLoop, hstop]
  | cons msg msgs ih =>
    rw [List.forall_mem_cons] at hmsgs
    obtain ⟨fuel, rfl⟩ := Nat.exists_eq_succ_of_ne_zero (Nat.ne_of_gt (Nat.zero_lt_of_lt hfuel))
    rw [List.flatMap_cons, List.append_assoc, readLoop, readMessage_encode hmsgs.1]
    simp only [if_neg hopen.head]
    rw [ih hmsgs.2 hopen.tail (Nat.lt_of_succ_lt_succ hfuel)]
    rfl

theorem violates_iff (hside : p.side = .server config) (hest : p.session.state = .established)
    (msg : MsgView) :
    Violates C now msg p ↔ (p.dispatchMessageFrame C now msg).session.state ≠ .established := by
  constructor
  · rintro ⟨q, reason, hq, heq⟩
    rw [heq, closeSession_state, hq.state, hest]
    decide
  · intro hne
    generalize hp : p.dispatchMessageFrame C now msg = p' at hne
    have hhandled := dispatchMessageFrame_handled (C := C) hside now msg
    rw [hp] at hhandled
    cases hhandled with
    | kept h => exact absurd (h.state.trans hest) hne
    | @closing q reason h => exact ⟨q, reason, h, hp⟩

theorem length_le_encode (msgs : List MsgView) :
    msgs.length ≤ (msgs.flatMap MsgView.encode).length := by
  induction msgs with
  | nil => exact le_rfl
  | cons msg msgs ih =>
    rw [List.flatMap_cons, List.length_append, List.length_cons, MsgView.length_encode]
    omega

theorem afterFrames_open (C : Crypto) (now : UInt64) (msgs : List MsgView)
    (hside : p.side = .server config)
    (hopen : p.session.state ≠ .closed) :
    (p.afterFrames C now msgs).side = .server config ∧
      (p.afterFrames C now msgs).session.state ≠ .closed := by
  induction msgs generalizing p with
  | nil => exact ⟨hside, hopen⟩
  | cons msg msgs ih =>
    have hhandled := dispatchMessageFrame_handled (C := C) hside now msg
    exact ih (hhandled.side_eq.trans hside) (hhandled.ne_closed hopen)

theorem staysOpen_of_server (hside : p.side = .server config)
    (hopen : p.session.state ≠ .closed) (msgs : List MsgView) : p.StaysOpen C now msgs :=
  fun _ _ => (afterFrames_open C now _ hside hopen).2

variable (C now) in
/-- The payload is dispatched up to the last of the given frames: no other frame is handed to
`dispatch_message_frame`, and behind the last one nothing reaches the application or changes
reliable, ordered or reassembly state. -/
structure StopsBehind (msgs : List MsgView) (payload : Bytes) (p : Party) : Prop where
  frames : ∃ rest ending,
    p.readLoop C now (payload.length + 1) payload = some (msgs, rest, ending)
  trace : (p.dispatchMessagePayload C now payload).session.trace =
    (p.afterFrames C now msgs).session.trace
  reliable : (p.dispatchMessagePayload C now payload).session.reliable =
    (p.afterFrames C now msgs).session.reliable
  orderedReliable : (p.dispatchMessagePayload C now payload).session.orderedReliable =
    (p.afterFrames C now msgs).session.orderedReliable
  ordered : (p.dispatchMessagePayload C now payload).session.ordered =
    (p.afterFrames C now msgs).session.ordered
  reassembler : (p.dispatchMessagePayload C now payload).session.reassembler =
    (p.afterFrames C now msgs).session.reassembler

/-- A violation makes the session closing, the frames behind it are handled like those before it,
and the payload is dispatched up to the violation exactly when nothing stands behind it. -/
theorem dispatch_stops_iff (before after : List MsgView) (msg : MsgView)
    (hside : p.side = .server config) (hest : p.session.state = .established)
    (hlen : ∀ m ∈ before ++ msg :: after, m.data.length < 2 ^ 16)
    (hviolates : Violates C now msg (p.afterFrames C now before)) :
    (p.afterFrames C now (before ++ [msg])).session.state = .closing ∧
      p.dispatchMessagePayload C now ((before ++ msg :: after).flatMap MsgView.encode) =
        p.afterFrames C now (before ++ msg :: after) ∧
      (p.StopsBehind C now (before ++ [msg]) ((before ++ msg :: after).flatMap MsgView.encode) ↔
        after = []) := by
  have hopen : p.session.state ≠ .closed := by
    rw [hest]
    decide
  have hread : p.readLoop C now _ ((before ++ msg :: after).flatMap MsgView.encode ++ []) = _ :=
    readLoop_of_open hlen readMessage_nil (staysOpen_of_server hside hopen _)
      (Nat.lt_succ_of_le (length_le_encode _))
  rw [List.append_nil] at hread
  have hall : p.dispatchMessagePayload C now ((before ++ msg :: after).flatMap MsgView.encode) =
      p.afterFrames C now (before ++ msg :: after) := dispatchFrames_eq hread
  refine ⟨?_, hall, ?_, ?_⟩
  · obtain ⟨q, reason, hq, heq⟩ := hviolates
    have hreached := (afterFrames_open C now before hside hopen).2
    rw [afterFrames, List.foldl_append, List.foldl_cons, List.foldl_nil]
    change ((p.afterFrames C now before).dispatchMessageFrame C now msg).session.state = _
    rw [heq, closeSession_state, hq.state, if_neg hreached]
  · intro hstops
    obtain ⟨rest, ending, hframes⟩ := hstops.frames
    have heq := congrArg Prod.fst (Option.some.inj (hread.symm.trans hframes))
    exact (List.cons.inj (List.append_cancel_left heq)).2
  · rintro rfl
    exact ⟨⟨_, _, hread⟩, by rw [hall], by rw [hall], by rw [hall], by rw [hall], by rw [hall]⟩

def unknownControl : MsgView := ⟨.control, 9, []⟩

def notice : MsgView := ⟨.unreliable, 7, [42]⟩

def openSession : Party where
  side := .server {}
  session := { connId := 1, state := .established,
               keys := ⟨List.Vector.replicate 32 2, List.Vector.replicate 32 1⟩ }
  net := { sockOpen := true }

theorem openSession_side : openSession.side = .server {} := rfl

theorem openSession_violates : Violates .standIn 5 unknownControl openSession :=
  (violates_iff openSession_side rfl unknownControl).mpr (by decide +kernel)

/-- A message behind a violation is dispatched and reaches the application. -/
theorem violation_followed :
    openSession.session.state = .established ∧
      Violates .standIn 5 unknownControl (openSession.afterFrames .standIn 5 []) ∧
      ¬openSession.StopsBehind .standIn 5 [unknownControl]
        ([unknownControl, notice].flatMap MsgView.encode) ∧
      .emitted notice ∈ (openSession.dispatchMessagePayload .standIn 5
        ([unknownControl, notice].flatMap MsgView.encode)).session.trace ∧
      .emitted notice ∉ (openSession.afterFrames .standIn 5 [unknownControl]).session.trace := by
  have hemitted : .emitted notice ∈ (openSession.dispatchMessagePayload .standIn 5
        ([unknownControl, notice].flatMap MsgView.encode)).session.trace ∧
      .emitted notice ∉ (openSession.afterFrames .standIn 5 [unknownControl]).session.trace := by
    decide +kernel
  refine ⟨rfl, openSession_violates, fun hstops => ?_, hemitted⟩
  exact hemitted.2 (hstops.trace ▸ hemitted.1)

/-- With the two frames the other way round nothing stands behind the violation. -/
theorem violation_last :
    openSession.StopsBehind .standIn 5 [notice, unknownControl]
      ([notice, unknownControl].flatMap MsgView.encode) :=
  (dispatch_stops_iff [notice] [] unknownControl openSession_side rfl (by decide)
    ((violates_iff (afterFrames_open .standIn 5 [notice] openSession_side (by decide)).1
      (by decide +kernel) unknownControl).mpr (by decide +kernel))).2.2.mpr rfl

end Party

end SecureCnet
