import SecureCnet.Session.Silent

/-!
# Which acknowledgements are queued

A reliable frame is acknowledged under its channel and id before its id is shown to the
receive window. No other frame is acknowledged.
-/

namespace SecureCnet

/-- The frame an acknowledgement is queued for. -/
def Event.ackOf : Event → Option (Channel × UInt64)
  | .ackQueued ch id => some (ch, id)
  | _ => none

namespace Session

variable {s s' : Session}

def acks (s : Session) : List (Channel × UInt64) := s.trace.filterMap Event.ackOf

theorem mem_acks {ch : Channel} {id : UInt64} :
    (ch, id) ∈ s.acks ↔ Event.ackQueued ch id ∈ s.trace := by
  unfold acks
  rw [List.mem_filterMap]
  constructor
  · rintro ⟨e, he, hack⟩
    cases e with
    | ackQueued ch' id' =>
      cases hack
      exact he
    | _ => cases hack
  · exact fun h => ⟨_, h, rfl⟩

theorem acks_append {es : List Event} (h : s'.trace = s.trace ++ es) :
    s'.acks = s.acks ++ es.filterMap Event.ackOf := by
  rw [acks, acks, h, List.filterMap_append]

theorem acks_of_append {es : List Event} (h : s'.trace = s.trace ++ es)
    (hes : ∀ e ∈ es, e.ackOf = none) : s'.acks = s.acks := by
  rw [acks_append h, List.filterMap_eq_nil_iff.mpr hes, List.append_nil]

theorem acks_eq_inbound (s : Session) : s.acks = s.inbound.filterMap Event.ackOf := by
  unfold acks inbound
  rw [List.filterMap_filter]
  congr 1
  funext e
  cases e <;> rfl

theorem Tidy.acks_eq {A : Channel → UInt64 → Prop} (h : s.Tidy A s') : s'.acks = s.acks := by
  obtain ⟨es, ht, hquiet⟩ := h.trace
  refine acks_of_append ht fun e he => ?_
  have hq := hquiet e he
  cases e with
  | ackQueued ch id => exact hq.elim
  | _ => rfl

end Session

namespace Party

variable {C : Crypto} {p p' : Party}

theorem Silent.acks_eq (h : p.Silent p') : p'.session.acks = p.session.acks := by
  rw [Session.acks_eq_inbound, h.inbound, ← Session.acks_eq_inbound]

theorem orViolation_acks (now : UInt64) (reason : CloseReason) (r : Result Unit × Party) :
    (orViolation C now reason r).session.acks = r.2.session.acks := by
  obtain ⟨rc, q⟩ := r
  cases rc with
  | ok u => rfl
  | error e => exact (violation_silent now reason q).acks_eq

theorem handleFragmentPayload_acks (now : UInt64) (f : FragmentView) (p : Party) :
    (p.handleFragmentPayload now f).2.session.acks = p.session.acks := by
  obtain ⟨ordered, sequenced, reassembler, es, h, hes⟩ := handleFragmentPayload_shape now f p
  rw [h]
  refine Session.acks_of_append rfl fun e he => ?_
  rcases hes e he with ⟨m, rfl⟩ | ⟨msg, rfl⟩ <;> rfl

theorem onSession_deliver_acks (ch : Channel) (t : UInt8) (data : Bytes) (seq : UInt64)
    (p : Party) : (p.onSession (Session.deliverApplicationMessage ch t data seq)).2.session.acks =
      p.session.acks :=
  (Session.tidy_deliverApplicationMessage (A := fun _ _ => True) ch t data seq p.session).acks_eq

theorem dispatchUserData_acks (now : UInt64) (ch : Channel) (id : UInt64) (t : UInt8)
    (data : Bytes) (p : Party) :
    (p.dispatchUserData C now ch id t data).session.acks = p.session.acks := by
  have hlog : ∀ d, (p.log (.passed ch id t d)).session.acks = p.session.acks :=
    fun d => Session.acks_of_append rfl (List.forall_mem_singleton.mpr rfl)
  unfold dispatchUserData
  split_ifs
  · cases readOrderedPayload data with
    | error e => exact (violation_silent now _ p).acks_eq
    | ok su => rw [orViolation_acks, onSession_deliver_acks, hlog]
  · rw [orViolation_acks, onSession_deliver_acks, hlog]

theorem dispatchBody_acks (now : UInt64) (ch : Channel) (id : UInt64) (t : UInt8) (data : Bytes)
    (p : Party) : (p.dispatchBody C now ch id t data).session.acks = p.session.acks := by
  unfold dispatchBody
  split_ifs
  · cases readFragmentPayload data with
    | error e => exact dispatchUserData_acks now ch id t data p
    | ok f => rw [orViolation_acks, handleFragmentPayload_acks]
  · exact dispatchUserData_acks now ch id t data p

/-- Acknowledging a frame queues its acknowledgement or none. -/
theorem accepting_acks (ch : Channel) (id : UInt64) (p : Party) :
    ∀ a ∈ (p.accepting C ch id).session.acks, a ∈ p.session.acks ∨ a = (ch, id) := by
  obtain ⟨n, es, net, h, -, hes⟩ := queueControlAck_upToNumber (C := C) ch id p
  have hqueue : ∀ a ∈ (p.queueControlAck C ch id).2.session.acks,
      a ∈ p.session.acks ∨ a = (ch, id) := by
    intro a ha
    rw [h, Session.acks_append rfl] at ha
    refine (List.mem_append.mp ha).imp_right fun hnew => ?_
    obtain ⟨e, he, hack⟩ := List.mem_filterMap.mp hnew
    rcases hes e he with (rfl | ⟨key, nonce, rfl⟩) | rfl
    · cases hack
    · cases hack
    · exact (Option.some.inj hack).symm
  have haccept : ∀ q : Party, (q.acceptIncoming ch id).2.session.acks = q.session.acks := by
    intro q
    unfold acceptIncoming
    dsimp only
    split_ifs
    · have hlogged : ∀ e ∈ [Event.accepted ch id], e.ackOf = none :=
        List.forall_mem_singleton.mpr rfl
      exact Session.acks_of_append (by simp [log]) hlogged
    · rw [Session.acks, Session.acks, mapSession_session, Session.setReliable_trace]
  unfold accepting
  rw [haccept]
  exact hqueue

/-- The id of a reliable frame. -/
def reliableId (msg : MsgView) : Option UInt64 :=
  if msg.channel.isReliable then
    match readReliablePayload msg.data with
    | .ok (id, _) => some id
    | .error _ => none
  else none

theorem dispatchReliable_acks (now : UInt64) {msg : MsgView} (hch : msg.channel.isReliable = true)
    (p : Party) : ∀ a ∈ (p.dispatchReliable C now msg).session.acks,
      a ∈ p.session.acks ∨ ∃ id, reliableId msg = some id ∧ a = (msg.channel, id) := by
  cases hr : readReliablePayload msg.data with
  | error e =>
    have hdisp : p.dispatchReliable C now msg = p.violation C now .invalidPacket := by
      unfold dispatchReliable
      rw [hr]
    rw [hdisp, (violation_silent now _ p).acks_eq]
    exact fun a ha => Or.inl ha
  | ok idb =>
    obtain ⟨id, body⟩ := idb
    have hid : reliableId msg = some id := by rw [reliableId, if_pos hch, hr]
    intro a ha
    rw [dispatchReliable_eq msg now hr] at ha
    have hacc : a ∈ (p.accepting C msg.channel id).session.acks := by
      split_ifs at ha
      · rwa [dispatchBody_acks] at ha
      · exact ha
    exact (accepting_acks msg.channel id p a hacc).imp_right fun heq => ⟨id, hid, heq⟩

/-- A frame is acknowledged under its own channel and id, if at all. -/
theorem dispatchMessageFrame_acks (now : UInt64) (msg : MsgView) (p : Party) :
    ∀ a ∈ (p.dispatchMessageFrame C now msg).session.acks,
      a ∈ p.session.acks ∨ ∃ id, reliableId msg = some id ∧ a = (msg.channel, id) := by
  have hsame : ∀ q : Party, q.session.acks = p.session.acks → ∀ a ∈ q.session.acks,
      a ∈ p.session.acks ∨ ∃ id, reliableId msg = some id ∧ a = (msg.channel, id) :=
    fun q hq a ha => Or.inl (hq ▸ ha)
  have hviolation : ∀ reason, (p.violation C now reason).session.acks = p.session.acks :=
    fun reason => (violation_silent now reason p).acks_eq
  obtain ⟨ch, t, d⟩ := msg
  unfold dispatchMessageFrame
  cases ch with
  | reliable | reliableOrdered => exact dispatchReliable_acks now rfl p
  | unreliable =>
    refine hsame _ ?_
    rw [orViolation_acks, onSession_deliver_acks]
  | sequencedUnreliable =>
    refine hsame _ ?_
    dsimp only
    cases readSequencedPayload d with
    | error e => exact hviolation _
    | ok sd => rw [orViolation_acks, onSession_deliver_acks]
  | control =>
    refine hsame _ ?_
    dsimp only [dispatchControl]
    split_ifs
    · exact (dispatchAck_silent now d p).acks_eq
    · cases readFragmentPayload d with
      | error e => exact hviolation _
      | ok f => rw [orViolation_acks, handleFragmentPayload_acks]
    · exact hviolation _

end Party

end SecureCnet
