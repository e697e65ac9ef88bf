import SecureCnet.Delivery.Transmissions
import SecureCnet.Session.Continuity

/-!
# Reliable sessions while a session listens

Apart from `send` and `pump_reliable`, session code only takes acknowledgements out of
the retransmission queues and notes received ids, or it ends the session and clears
them. `datagramAcks` is what `ReliableSession::acknowledge` reports while a datagram is
received; a valid sample in it is about a message as it was pending before.
-/

namespace SecureCnet

namespace Party

/-- Over: the session is closed and waits for no acknowledgement. -/
def Ended (p : Party) : Prop :=
  p.session.state = .closed ∧ ∀ ch, (p.session.reliableFor ch).pending = []

/-- The reliable sessions have only heard from the peer, or the session has ended. -/
structure Attended (p p' : Party) : Prop where
  rank : p.session.state.rank ≤ p'.session.state.rank
  cfg : ∀ ch, (p'.session.reliableFor ch).cfg = (p.session.reliableFor ch).cfg
  counted : ∀ ch, (p.session.reliableFor ch).Counted → (p'.session.reliableFor ch).Counted
  hears : p'.Ended ∨ ∀ ch, (p.session.reliableFor ch).Hears (p'.session.reliableFor ch)

variable {C : Crypto} {p p' p'' : Party}

theorem Ended.of_hears (h : p.Ended) (hrank : p.session.state.rank ≤ p'.session.state.rank)
    (hears : ∀ ch, (p.session.reliableFor ch).Hears (p'.session.reliableFor ch)) : p'.Ended := by
  constructor
  · by_contra hopen
    exact ne_closed_of_rank_le hrank hopen h.1
  · intro ch
    have hsub := (hears ch).pending_sublist
    rw [h.2 ch] at hsub
    exact List.sublist_nil.mp hsub

theorem Attended.ended (h : p.Attended p') (hp : p.Ended) : p'.Ended :=
  h.hears.elim id fun hears => hp.of_hears h.rank hears

theorem Attended.pending_sublist (h : p.Attended p') (ch : Channel) :
    (p'.session.reliableFor ch).pending.Sublist (p.session.reliableFor ch).pending := by
  rcases h.hears with hend | hears
  · rw [hend.2 ch]
    exact List.nil_sublist _
  · exact (hears ch).pending_sublist

theorem Attended.trans (h : p.Attended p') (h' : p'.Attended p'') : p.Attended p'' where
  rank := h.rank.trans h'.rank
  cfg := fun ch => (h'.cfg ch).trans (h.cfg ch)
  counted := fun ch hc => h'.counted ch (h.counted ch hc)
  hears := by
    rcases h'.hears with hend | hears'
    · exact Or.inl hend
    rcases h.hears with hend | hears
    · exact Or.inl (h'.ended hend)
    · exact Or.inr fun ch => (hears ch).trans (hears' ch)

theorem attended_of_hears (hrank : p.session.state.rank ≤ p'.session.state.rank)
    (hears : ∀ ch, (p.session.reliableFor ch).Hears (p'.session.reliableFor ch)) : p.Attended p' :=
  ⟨hrank, fun ch => (hears ch).cfg, fun ch => (hears ch).counted, Or.inr hears⟩

theorem attended_of_eq (hrank : p.session.state.rank ≤ p'.session.state.rank)
    (hr : p'.session.reliable = p.session.reliable)
    (ho : p'.session.orderedReliable = p.session.orderedReliable) : p.Attended p' := by
  refine attended_of_hears hrank fun ch => ?_
  rw [Session.reliableFor_congr hr ho]
  exact .refl

theorem Attended.refl (p : Party) : p.Attended p := attended_of_eq le_rfl rfl rfl

theorem UpToNumber.attended {E : Event → Prop} (h : p.UpToNumber E p') : p.Attended p' := by
  obtain ⟨n, es, net, rfl, -⟩ := h
  exact attended_of_eq le_rfl rfl rfl

theorem attended_mapSession {f : Session → Session} (hs : (f p.session).state = p.session.state)
    (hr : (f p.session).reliable = p.session.reliable)
    (ho : (f p.session).orderedReliable = p.session.orderedReliable) :
    p.Attended (p.mapSession f) :=
  attended_of_eq (by rw [mapSession_session, hs]) hr ho

theorem log_attended (e : Event) (p : Party) : p.Attended (p.log e) :=
  attended_mapSession rfl rfl rfl

theorem setReliable_attended {ch : Channel} {rs : ReliableSession}
    (h : (p.session.reliableFor ch).Hears rs) :
    p.Attended (p.mapSession (Session.setReliable ch rs)) := by
  refine attended_of_hears (by rw [mapSession_session, Session.setReliable_state]) fun ch' => ?_
  rw [mapSession_session, Session.reliableFor_setReliable]
  split_ifs with hch
  · have hfor : p.session.reliableFor ch' = p.session.reliableFor ch := by
      simp [Session.reliableFor, hch]
    rw [hfor]
    exact h
  · exact .refl

theorem transitionState_reliable (next : ConnectionState) (s : Session) :
    (s.transitionState next).reliable = s.reliable ∧
      (s.transitionState next).orderedReliable = s.orderedReliable := by
  unfold Session.transitionState
  split_ifs <;> exact ⟨rfl, rfl⟩

theorem transitionState_attended {next : ConnectionState}
    (h : p.session.state.rank ≤ next.rank) :
    p.Attended (p.mapSession (Session.transitionState next)) := by
  obtain ⟨hr, ho⟩ := transitionState_reliable next p.session
  refine attended_of_eq ?_ hr ho
  rw [mapSession_session, Session.transitionState_state]
  exact h

/-- Closing for good with both reliable sessions cleared. -/
theorem attended_of_cleared {s : Session} {net : Transport}
    (hr : s.reliable = p.session.reliable.clear)
    (ho : s.orderedReliable = p.session.orderedReliable.clear) :
    p.Attended { p with session := s.transitionState .closed, net } := by
  have hstate : (s.transitionState .closed).state = .closed := Session.transitionState_state _ _
  have hfor : ∀ ch, (s.transitionState .closed).reliableFor ch =
      (p.session.reliableFor ch).clear := by
    intro ch
    obtain ⟨hr', ho'⟩ := transitionState_reliable .closed s
    unfold Session.reliableFor
    split_ifs
    · exact ho'.trans ho
    · exact hr'.trans hr
  refine ⟨?_, fun ch => ?_, fun ch _ => ?_, Or.inl ⟨hstate, fun ch => ?_⟩⟩
  · dsimp only
    rw [hstate]
    exact ConnectionState.rank_le_closed _
  · exact (congrArg ReliableSession.cfg (hfor ch)).trans rfl
  · exact (hfor ch).symm ▸ ReliableSession.counted_clear _
  · exact (congrArg ReliableSession.pending (hfor ch)).trans rfl

theorem failConnection_attended (reason : CloseReason) (p : Party) :
    p.Attended (p.failConnection reason) := attended_of_cleared rfl rfl

theorem remoteClose_attended (reason : CloseReason) (p : Party) :
    p.Attended (p.remoteClose reason) := attended_of_cleared rfl rfl

theorem endDrain_attended (p : Party) : p.Attended p.endDrain := attended_of_cleared rfl rfl

theorem closeSession_attended (now : UInt64) (reason : CloseReason) (p : Party) :
    p.Attended (p.closeSession C now reason) := by
  have hrank := (closeSession_steps (C := C) (A := fun _ _ => True) now reason p).rank
  obtain ⟨n, st, es, net, h, -⟩ := closeSession_eq (C := C) now reason p
  rw [h] at hrank ⊢
  exact attended_of_eq hrank rfl rfl

theorem attended_closing (C : Crypto) : ClosingRule C Attended where
  refl := .refl
  trans := .trans
  fails reason _ := failConnection_attended reason _
  closes now reason _ := closeSession_attended now reason _

theorem violation_attended (now : UInt64) (reason : CloseReason) (p : Party) :
    p.Attended (p.violation C now reason) :=
  (attended_closing C).violation now reason p

/-! ### Frames -/

theorem deliver_attended (ch : Channel) (t : UInt8) (d : Bytes) (seq : UInt64) (p : Party) :
    p.Attended (p.onSession (Session.deliverApplicationMessage ch t d seq)).2 := by
  obtain ⟨ordered, sequenced, es, h, -⟩ := deliver_shape ch t d seq p
  rw [h]
  exact attended_of_eq le_rfl rfl rfl

theorem handleFragmentPayload_attended (now : UInt64) (f : FragmentView) (p : Party) :
    p.Attended (p.handleFragmentPayload now f).2 := by
  obtain ⟨ordered, sequenced, reassembler, es, h, -⟩ := handleFragmentPayload_shape now f p
  rw [h]
  exact attended_of_eq le_rfl rfl rfl

theorem dispatchAck_attended (now : UInt64) (data : Bytes) (p : Party) :
    p.Attended (p.dispatchAck C now data) := by
  unfold dispatchAck
  cases readReliableAck data with
  | error e => exact violation_attended now _ p
  | ok ci =>
    have h : p.Attended (p.mapSession (Session.setReliable ci.1
        ((p.session.reliableFor ci.1).acknowledge ci.2 now).2)) :=
      setReliable_attended (.acknowledge .refl _ _)
    replace h := h.trans (log_attended
      (.reported ⟨ci.1, ci.2, ((p.session.reliableFor ci.1).acknowledge ci.2 now).1⟩) _)
    dsimp only
    split_ifs
    · exact (h.trans (log_attended _ _)).trans (attended_mapSession rfl rfl rfl)
    · exact h

theorem acceptIncoming_attended (ch : Channel) (id : UInt64) (p : Party) :
    p.Attended (p.acceptIncoming ch id).2 := by
  have h : p.Attended (p.mapSession (Session.setReliable ch
      ((p.session.reliableFor ch).acceptIncoming id).2)) :=
    setReliable_attended (.acceptIncoming .refl _)
  unfold acceptIncoming
  dsimp only
  split_ifs
  · exact h.trans (log_attended _ _)
  · exact h

theorem queueControlAck_attended (ch : Channel) (id : UInt64) (p : Party) :
    p.Attended (p.queueControlAck C ch id).2 := by
  obtain ⟨rc, p', hq, ⟨e, -, h⟩ | ⟨-, h⟩⟩ := queueControlAck_queued C ch id p
  · rw [h]
    exact hq.upToNumber.attended
  · rw [h]
    exact hq.upToNumber.attended.trans (log_attended _ _)

/-! ### Packets -/

theorem authenticate_attended (now : UInt64) (packet : PacketView) (p : Party) :
    p.Attended (p.authenticate C now packet).2 := by
  unfold authenticate
  cases p.openPacket C packet with
  | error e => exact .refl p
  | ok plaintext =>
    dsimp only
    split_ifs <;> exact attended_of_eq le_rfl rfl rfl

theorem attended_receiving (C : Crypto) : ReceivingRule C (fun _ _ _ => True) Attended where
  toClosingRule := attended_closing C
  remoteCloses reason _ := remoteClose_attended reason _
  passes _ _ _ _ := log_attended _
  shows _ := log_attended _
  delivers := deliver_attended
  reassembles := handleFragmentPayload_attended
  acknowledged now data p _ := dispatchAck_attended now data p
  acknowledges := queueControlAck_attended
  accepts := acceptIncoming_attended
  authenticates := authenticate_attended
  establishes hstate := transitionState_attended (by rw [hstate]; decide)
  ends _ _ := transitionState_attended (ConnectionState.rank_le_closed _)

theorem receivePacket_attended (now : UInt64) (packet : PacketView) (p : Party) :
    p.Attended (p.receivePacket C now packet) :=
  (attended_receiving C).receivePacket now packet p fun _ _ _ => Or.inl fun _ _ => trivial

theorem receive_attended (now : UInt64) (datagram : Bytes) (p : Party) :
    p.Attended (p.receive C now datagram) :=
  (attended_receiving C).receive now datagram p fun _ _ _ _ _ => Or.inl fun _ _ => trivial

/-! ### Other operations -/

theorem sendPayload_attended (data : Bytes) (p : Party) : p.Attended (p.sendPayload C data).2 := by
  unfold sendPayload
  split_ifs
  · exact .refl p
  · exact .refl p
  · exact (queueSecure_queued C .raw data .normal p).upToNumber.attended

theorem flushAt_attended (now : UInt64) (i : ℕ) (socket : SocketResult) (p : Party) :
    p.Attended (p.flushAt now i socket).2 := by
  obtain ⟨budget, lastSendMs, net, h, -⟩ := flushAt_shape now i socket p
  rw [h]
  exact attended_of_eq le_rfl rfl rfl

theorem startClosing_attended (reason : CloseReason) (h : p.session.state ≠ .closed) :
    p.Attended (p.mapSession (Session.startClosing reason)) :=
  (attended_mapSession (f := fun s => { s with closeReason := reason }) rfl rfl rfl).trans
    (transitionState_attended (ConnectionState.rank_le_closing h))

theorem attended_upkeep (C : Crypto) : UpkeepRule C Attended where
  toClosingRule := attended_closing C
  closePacket now reason encrypted _ := (queueClosePacket_upToNumber now reason encrypted _).attended
  keepalive p := (queueSecure_queued C .keepalive [] .high p).upToNumber.attended
  startsClosing := startClosing_attended
  drains _ := endDrain_attended _
  drained := (attended_receiving C).ends

theorem close_attended (now : UInt64) (reason : CloseReason) (p : Party) :
    p.Attended (p.close C now reason).2 :=
  (attended_upkeep C).close now reason p

theorem runHousekeeping_attended (now : UInt64) (p : Party) :
    p.Attended (p.runHousekeeping C now).2 := by
  have hexpire : p.Attended (p.expireFragments now) := attended_mapSession rfl rfl rfl
  exact hexpire.trans ((attended_upkeep C).runHousekeeping now p)

/-! ### What acknowledgements report -/

end Party

def Event.report : Event → Option AckReport
  | .reported report => some report
  | _ => none

namespace Party

/-- What `ReliableSession::acknowledge` reports while a datagram is received. -/
def datagramAcks (C : Crypto) (now : UInt64) (datagram : Bytes) (p : Party) : List AckReport :=
  ((p.receive C now datagram).session.trace.drop p.session.trace.length).filterMap Event.report

/-- A report of the reliable session of its channel, in a state that came about by listening. -/
def Reports (now : UInt64) (p : Party) (r : AckReport) : Prop :=
  r.channel.isReliable = true ∧ ∃ rs, (p.session.reliableFor r.channel).Hears rs ∧
    r.event = (rs.acknowledge r.messageId now).1

/-- The session has listened at a time, and the valid samples come from what it heard. -/
structure Sampled (now : UInt64) (p p' : Party) : Prop where
  attended : p.Attended p'
  reports : ∃ es, p'.session.trace = p.session.trace ++ es ∧ ∀ r, Event.reported r ∈ es →
    r.event.rttSampleValid = true → p.Reports now r

variable {C : Crypto} {p p' p'' : Party} {now : UInt64} {report : AckReport}

theorem Attended.reports (h : p.Attended p') (hvalid : report.event.rttSampleValid = true)
    (hr : p'.Reports now report) : p.Reports now report := by
  obtain ⟨hch, rs, hears, hevent⟩ := hr
  rcases h.hears with hend | hbefore
  · -- Nothing is pending any more, so nothing can be sampled.
    have hnil := hears.pending_sublist
    rw [hend.2, List.sublist_nil] at hnil
    rw [hevent, ReliableSession.acknowledge, hnil] at hvalid
    cases hvalid
  · exact ⟨hch, rs, (hbefore _).trans hears, hevent⟩

theorem Sampled.refl (now : UInt64) (p : Party) : p.Sampled now p :=
  ⟨.refl p, [], by simp, by simp⟩

theorem Sampled.trans (h : p.Sampled now p') (h' : p'.Sampled now p'') : p.Sampled now p'' := by
  obtain ⟨es, htrace, hes⟩ := h.reports
  obtain ⟨es', htrace', hes'⟩ := h'.reports
  refine ⟨h.attended.trans h'.attended, es ++ es', by rw [htrace', htrace, List.append_assoc], ?_⟩
  intro r hr hvalid
  rcases List.mem_append.mp hr with hr | hr
  · exact hes r hr hvalid
  · exact h.attended.reports hvalid (hes' r hr hvalid)

/-- Changes that take no acknowledgement report nothing. -/
theorem Steps.unreported (h : Steps C (fun _ _ => False) p p') :
    ∃ es, p'.session.trace = p.session.trace ++ es ∧ ∀ r, Event.reported r ∉ es := by
  induction h with
  | refl => exact ⟨[], by simp, by simp⟩
  | @tail q q' _ hc ih =>
    suffices ∃ es, q'.session.trace = q.session.trace ++ es ∧ ∀ r, Event.reported r ∉ es by
      obtain ⟨es, htrace, hes⟩ := ih
      obtain ⟨es', htrace', hes'⟩ := this
      exact ⟨es ++ es', by rw [htrace', htrace, List.append_assoc], by simp [hes, hes']⟩
    cases hc with
    | session s h =>
      obtain ⟨es, htrace, hes⟩ := h.trace
      exact ⟨es, htrace, fun r hr => hes _ hr⟩
    | dies _ h =>
      obtain ⟨es, htrace, hes⟩ := h.trace
      exact ⟨es, htrace, fun r hr => hes _ hr⟩
    | ends config hside hstate =>
      rw [ends_eq hstate]
      exact ⟨_, rfl, by simp⟩
    | queue _ _ _ _ _ h =>
      obtain ⟨n, es, net, rfl, -, hes⟩ := h.upToNumber
      exact ⟨es, rfl, fun r hr => by simpa [PacketEvent] using hes _ hr⟩
    | ack q'' ch id h =>
      obtain ⟨n, es, net, rfl, -, hes⟩ := h.upToNumber
      refine ⟨es ++ [.ackQueued ch id], by simp [log], fun r hr => ?_⟩
      have hr : Event.reported r ∈ es := by simpa using hr
      simpa [PacketEvent] using hes _ hr
    | plain _ h =>
      obtain ⟨s, net, rfl, rfl | rfl, -⟩ := h.shape
      · exact ⟨[], by simp, by simp⟩
      · exact ⟨[.drew .packet], rfl, by simp⟩

theorem Attended.sampled (h : p.Attended p') (hs : Steps C (fun _ _ => False) p p') :
    p.Sampled now p' := by
  obtain ⟨es, htrace, hes⟩ := hs.unreported
  exact ⟨h, es, htrace, fun r hr => absurd hr (hes r)⟩

theorem dispatchAck_sampled (now : UInt64) (data : Bytes) (p : Party) :
    p.Sampled now (p.dispatchAck C now data) := by
  refine ⟨dispatchAck_attended now data p, ?_⟩
  unfold dispatchAck
  cases hread : readReliableAck data with
  | error e =>
    obtain ⟨es, htrace, hes⟩ := (violation_steps (C := C) (A := fun _ _ => False) now .invalidPacket
      p).unreported
    exact ⟨es, htrace, fun r hr => absurd hr (hes r)⟩
  | ok ci =>
    have hreport : p.Reports now
        ⟨ci.1, ci.2, ((p.session.reliableFor ci.1).acknowledge ci.2 now).1⟩ :=
      ⟨(readReliableAck_eq_ok.mp hread).2.1, _, .refl, rfl⟩
    dsimp only
    generalize hr : AckReport.mk ci.1 ci.2 _ = report at hreport ⊢
    split_ifs
    · exact ⟨[.reported report, .acked ci.1 ci.2], by simp [log], by simpa using fun _ => hreport⟩
    · exact ⟨[.reported report], by simp [log], by simpa using fun _ => hreport⟩

theorem sampled_receiving (C : Crypto) (now : UInt64) :
    ReceivingRule C (fun t _ _ => t = now) (Sampled now) :=
  have ha := attended_receiving C
  have hs := steps_receiving C fun _ _ => False
  { refl := .refl now
    trans := .trans
    fails := fun reason hside => (ha.fails reason hside).sampled (hs.fails reason hside)
    closes := fun t reason hside => (ha.closes t reason hside).sampled (hs.closes t reason hside)
    remoteCloses := fun reason hside =>
      (ha.remoteCloses reason hside).sampled (hs.remoteCloses reason hside)
    passes := fun ch id t d p => (ha.passes ch id t d p).sampled (hs.passes ch id t d p)
    shows := fun packet p => (ha.shows packet p).sampled (hs.shows packet p)
    delivers := fun ch t d seq p => (ha.delivers ch t d seq p).sampled (hs.delivers ch t d seq p)
    reassembles := fun t f p => (ha.reassembles t f p).sampled (hs.reassembles t f p)
    acknowledged := fun t data p ht => by
      cases hread : readReliableAck data with
      | error e =>
        exact (ha.acknowledged t data p fun _ _ _ => trivial).sampled
          (hs.acknowledged t data p fun ch id h => by cases hread.symm.trans h)
      | ok ci =>
        obtain rfl := ht ci.1 ci.2 hread
        exact dispatchAck_sampled t data p
    acknowledges := fun ch id p => (ha.acknowledges ch id p).sampled (hs.acknowledges ch id p)
    accepts := fun ch id p => (ha.accepts ch id p).sampled (hs.accepts ch id p)
    authenticates := fun t packet p =>
      (ha.authenticates t packet p).sampled (hs.authenticates t packet p)
    establishes := fun h => (ha.establishes h).sampled (hs.establishes h)
    ends := fun hside h => (ha.ends hside h).sampled (hs.ends hside h) }

/-- A valid sample of a datagram comes from the reliable session of its channel. -/
theorem datagramAcks_reports {datagram : Bytes} (h : report ∈ p.datagramAcks C now datagram)
    (hvalid : report.event.rttSampleValid = true) : p.Reports now report := by
  have hsampled := (sampled_receiving C now).receive now datagram p fun _ _ _ _ _ =>
    Or.inl fun _ _ => rfl
  obtain ⟨es, htrace, hes⟩ := hsampled.reports
  unfold datagramAcks at h
  rw [htrace, List.drop_left] at h
  obtain ⟨e, he, hreport⟩ := List.mem_filterMap.mp h
  cases e <;> cases hreport
  exact hes report he hvalid

end Party

end SecureCnet
