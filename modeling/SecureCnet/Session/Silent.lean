import SecureCnet.Session.Flush
import SecureCnet.Session.Frames

/-!
# Operations that receive nothing

Sending, retransmitting, flushing and closing leave the receiving half of a
session as it is, together with the record of what it received and acknowledged.
When the connection of a client ends the windows are cleared and the record stays.
-/

namespace SecureCnet

def Event.isInbound : Event → Bool
  | .ackQueued _ _ => true
  | e => e.isReceipt

def Session.inbound (s : Session) : List Event := s.trace.filter Event.isInbound

namespace Session

variable {s s' : Session}

theorem receipts_eq_inbound (s : Session) : s.receipts = s.inbound.filter Event.isReceipt := by
  rw [receipts, inbound, List.filter_filter]
  congr 1
  funext e
  cases e <;> rfl

theorem inbound_append {es : List Event} (hes : ∀ e ∈ es, e.isInbound = false)
    (h : s'.trace = s.trace ++ es) : s'.inbound = s.inbound := by
  have hnil : es.filter Event.isInbound = [] := by
    rw [List.filter_eq_nil_iff]
    intro e he
    simp [hes e he]
  rw [inbound, inbound, h, List.filter_append, hnil, List.append_nil]

theorem inbound_transitionState (next : ConnectionState) (s : Session) :
    (s.transitionState next).inbound = s.inbound := by
  unfold transitionState
  split_ifs
  · rfl
  · exact inbound_append (List.forall_mem_singleton.mpr rfl) rfl

end Session

namespace Party

/-- Nothing is received: the record stays, and the windows unless a client's connection ends. -/
structure Silent (p p' : Party) : Prop where
  side : p'.side = p.side
  inbound : p'.session.inbound = p.session.inbound
  inbox : p'.Dead ∨ p.session.SameInbox p'.session
  dead : p.Dead → p'.Dead

variable {C : Crypto} {p p' p'' : Party} {e : Event} {ch : Channel}

theorem Silent.refl (p : Party) : p.Silent p := ⟨rfl, rfl, Or.inr (.refl _), id⟩

theorem Silent.trans (h : p.Silent p') (h' : p'.Silent p'') : p.Silent p'' where
  side := h'.side.trans h.side
  inbound := h'.inbound.trans h.inbound
  inbox := by
    rcases h'.inbox with hd | hs'
    · exact Or.inl hd
    rcases h.inbox with hd | hs
    · exact Or.inl (h'.dead hd)
    · exact Or.inr (hs.trans hs')
  dead := fun hd => h'.dead (h.dead hd)

theorem PacketEvent.isInbound (h : PacketEvent e) : e.isInbound = false := by
  rcases h with rfl | ⟨key, nonce, rfl⟩ <;> rfl

theorem isReceipt_of_isInbound (h : e.isInbound = false) : e.isReceipt = false := by
  cases e <;> first | rfl | exact h

theorem UpToNumber.silent {E : Event → Prop} (h : p.UpToNumber E p')
    (hE : ∀ e, E e → e.isInbound = false) : p.Silent p' := by
  have hbox := h.sameInbox fun e he => isReceipt_of_isInbound (hE e he)
  obtain ⟨n, es, net, rfl, ho, hes⟩ := h
  refine ⟨rfl, Session.inbound_append (fun e he => hE e (hes e he)) rfl, Or.inr hbox, ?_⟩
  rintro ⟨hside, hstate, hsock⟩
  exact ⟨hside, hstate, ho.trans hsock⟩

theorem Queued.silent {kind : PacketKind} {payload : Bytes} {priority : SendPriority}
    {rc : Result Unit} (h : Queued C p kind payload priority rc p') : p.Silent p' :=
  h.upToNumber.silent fun _ => PacketEvent.isInbound

theorem silent_mapSession {f : Session → Session} (hbox : p.session.SameInbox (f p.session))
    (hin : (f p.session).inbound = p.session.inbound)
    (hclosed : p.session.state = .closed → (f p.session).state = .closed) :
    p.Silent (p.mapSession f) :=
  ⟨rfl, hin, Or.inr hbox, fun hd => ⟨hd.1, hclosed hd.2.1, hd.2.2⟩⟩

theorem silent_transitionState {next : ConnectionState}
    (h : p.session.state = .closed → next = .closed) :
    p.Silent (p.mapSession (Session.transitionState next)) := by
  refine silent_mapSession (Session.sameInbox_transitionState next _)
    (Session.inbound_transitionState next _) ?_
  intro hc
  unfold Session.transitionState
  split_ifs
  · exact hc
  · exact h hc

theorem silent_setReliable {f : Session → ReliableSession}
    (h : (f p.session).received = (p.session.reliableFor ch).received) :
    p.Silent (p.mapSession fun s => s.setReliable ch (f s)) := by
  refine silent_mapSession (Session.sameInbox_setReliable h) ?_ ?_
  · simp [Session.inbound]
  · simp

/-- The end of a client's connection. -/
theorem silent_of_dead {s : Session} {net : Transport} (hside : ∃ config, p.side = .client config)
    (ht : s.trace = p.session.trace) :
    p.Silent { p with
      session := s.transitionState .closed
      net := { net with pending := [], pendingBytes := 0, sockOpen := false } } := by
  have hdead : Dead { p with
      session := s.transitionState .closed
      net := { net with pending := [], pendingBytes := 0, sockOpen := false } } := by
    refine ⟨hside, ?_, rfl⟩
    unfold Session.transitionState
    dsimp only
    split_ifs with h
    · exact h
    · rfl
  refine ⟨rfl, ?_, Or.inl hdead, fun _ => hdead⟩
  dsimp only
  rw [Session.inbound_transitionState, Session.inbound, Session.inbound, ht]

theorem failConnection_silent (reason : CloseReason) (hside : ∃ config, p.side = .client config) :
    p.Silent (p.failConnection reason) :=
  silent_of_dead hside rfl

theorem remoteClose_silent (reason : CloseReason) (hside : ∃ config, p.side = .client config) :
    p.Silent (p.remoteClose reason) :=
  silent_of_dead hside rfl

theorem endDrain_silent (hside : ∃ config, p.side = .client config) : p.Silent p.endDrain :=
  silent_of_dead hside rfl

theorem closeSession_silent (now : UInt64) (reason : CloseReason)
    (hside : ∃ config, p.side = .server config) : p.Silent (p.closeSession C now reason) := by
  have hbox := closeSession_sameInbox (C := C) now reason p
  obtain ⟨n, st, es, net, h, -, hes⟩ := closeSession_eq (C := C) now reason p
  rw [h] at hbox ⊢
  refine ⟨rfl, Session.inbound_append ?_ rfl, Or.inr hbox, ?_⟩
  · intro e he
    rcases hes e he with he | ⟨a, b, rfl⟩
    · exact PacketEvent.isInbound he
    · rfl
  · rintro ⟨⟨config, hclient⟩, -⟩
    obtain ⟨config', hserver⟩ := hside
    rw [hserver] at hclient
    cases hclient

theorem violation_silent (now : UInt64) (reason : CloseReason) (p : Party) :
    p.Silent (p.violation C now reason) := by
  unfold violation
  cases hs : p.side with
  | client config => exact failConnection_silent reason ⟨config, hs⟩
  | server config => exact closeSession_silent now reason ⟨config, hs⟩

theorem queueClosePacket_silent (now : UInt64) (reason : CloseReason) (encrypted : Bool)
    (p : Party) : p.Silent (p.queueClosePacket C now reason encrypted).2 :=
  (queueClosePacket_upToNumber now reason encrypted p).silent fun _ => PacketEvent.isInbound

theorem silent_draw {f : Session → Session} (hbox : p.session.SameInbox (f p.session))
    (k : Counter) (ht : (f p.session).trace = p.session.trace ++ [.drew k])
    (hs : (f p.session).state = p.session.state) : p.Silent (p.mapSession f) :=
  silent_mapSession hbox (Session.inbound_append (List.forall_mem_singleton.mpr rfl) ht)
    fun h => hs.trans h

theorem sameInbox_of_draw {s s' : Session} {k : Counter} (hr : s'.reliable = s.reliable)
    (hor : s'.orderedReliable = s.orderedReliable) (ho : s'.ordered = s.ordered)
    (hq : s'.sequenced = s.sequenced) (ha : s'.reassembler = s.reassembler)
    (ht : s'.trace = s.trace ++ [.drew k]) : s.SameInbox s' :=
  Session.sameInbox_of_eq (by rw [hr]) (by rw [hor]) ho hq ha
    (Session.receipts_append (List.forall_mem_singleton.mpr rfl) ht)

theorem enqueued_silent {rs : ReliableSession}
    (h : rs.received = (p.session.reliableFor ch).received) : p.Silent (p.enqueued ch rs) := by
  have hset : p.Silent (p.mapSession (Session.setReliable ch rs)) :=
    silent_setReliable (f := fun _ => rs) h
  refine hset.trans (silent_draw (Session.sameInbox_log rfl _) (.message ch) rfl rfl)

/-- A send is silent, whatever it queues. -/
theorem Sending.silent {priority : SendPriority} {msgs : List MsgView}
    (h : Sending C priority p msgs p') : p.Silent p' := by
  induction h with
  | start => exact .refl p
  | drawFragmentId _ ih =>
    exact ih.trans (silent_draw (sameInbox_of_draw rfl rfl rfl rfl rfl rfl) .fragment rfl rfl)
  | drawOrdered _ ih =>
    exact ih.trans (silent_draw (sameInbox_of_draw rfl rfl rfl rfl rfl rfl) .ordered rfl rfl)
  | drawSequenced _ ih =>
    exact ih.trans (silent_draw (sameInbox_of_draw rfl rfl rfl rfl rfl rfl) .sequenced rfl rfl)
  | burned _ ch _ ih => exact ih.trans (enqueued_silent rfl)
  | lost _ payload e hq ih => exact ih.trans hq.silent
  | frame _ msg hch hq ih => exact ih.trans hq.silent
  | withdrawn _ ch m rs e now henq hq ih =>
    refine (ih.trans (enqueued_silent henq.received)).trans (hq.silent.trans ?_)
    exact silent_setReliable (f := fun s => ((s.reliableFor ch).acknowledge m.messageId now).2)
      (ReliableSession.sameNumbers_acknowledge _ _ _).received
  | reliable _ ch m rs now henq hq ih =>
    refine (ih.trans (enqueued_silent henq.received)).trans (hq.silent.trans ?_)
    exact silent_setReliable (f := fun s => ((s.reliableFor ch).noteSent m.messageId now).2)
      (ReliableSession.sameNumbers_noteSent _ _ _).received

theorem sendPayload_silent (data : Bytes) (p : Party) : p.Silent (p.sendPayload C data).2 := by
  unfold sendPayload
  split_ifs
  · exact .refl p
  · exact .refl p
  · exact (queueSecure_queued C .raw data .normal p).silent

theorem resendOne_silent (ch : Channel) (m : PendingReliableMessage) (p : Party) :
    p.Silent (p.resendOne C ch m).2 := by
  have hq := queueMessagePacket_queued C ch m.userType m.encodedPayload m.priority p
  unfold resendOne
  cases hr : p.queueMessagePacket C ch m.userType m.encodedPayload m.priority with
  | mk rc q =>
    rw [hr] at hq
    cases rc <;> exact hq.silent

theorem resendChannel_silent (hch : ch.isReliable = true) (now : UInt64) (p : Party) :
    p.Silent (p.resendChannel C ch now).2 := by
  -- The loop invariant: nothing was received and the queue is the one passed over.
  obtain ⟨-, hnum, hsilent, hsame⟩ := (p.session.reliableFor ch).resendDue_spec now
    (resendOne C ch)
    (fun q => p.Silent q ∧ q.session.reliableFor ch = p.session.reliableFor ch)
    (fun m q hm hq => by
      rw [← hq.2] at hm
      refine ⟨hq.1.trans (resendOne_silent ch m q), ?_⟩
      exact (resendOne_steps (C := C) (A := fun _ _ => True) hch hm).2.trans hq.2) p ⟨.refl p, rfl⟩
  unfold resendChannel
  cases hr : (p.session.reliableFor ch).resendDue now (resendOne C ch) p with
  | mk rc rest =>
    rw [hr] at hnum hsilent hsame
    refine hsilent.trans (silent_setReliable (f := fun _ => rest.1) ?_)
    rw [hsame]
    exact hnum.received

theorem expirePending_silent (now : UInt64) (p : Party) :
    p.Silent (p.mapSession (expirePending now)) :=
  silent_mapSession (Session.sameInbox_of_eq (ReliableSession.sameNumbers_expireOld now _).received
    (ReliableSession.sameNumbers_expireOld now _).received rfl rfl rfl rfl) rfl id

theorem mapBudget_silent (f : SendBudget → SendBudget) (p : Party) : p.Silent (p.mapBudget f) :=
  silent_mapSession (Session.sameInbox_of_eq rfl rfl rfl rfl rfl rfl) rfl id

theorem pumpReliable_silent (now : UInt64) (p : Party) : p.Silent (p.pumpReliable C now).2 :=
  pumpReliable_rule Silent.refl Silent.trans expirePending_silent resendChannel_silent
    (fun _ _ _ => mapBudget_silent _ _) now p

theorem startClosing_silent (reason : CloseReason) (h : p.session.state ≠ .closed) :
    p.Silent (p.mapSession (Session.startClosing reason)) := by
  have hset : p.Silent (p.mapSession fun s => { s with closeReason := reason }) :=
    silent_mapSession (Session.sameInbox_of_eq rfl rfl rfl rfl rfl rfl) rfl id
  exact hset.trans (silent_transitionState fun hc => absurd hc h)

theorem silent_upkeep (C : Crypto) : UpkeepRule C Silent where
  refl := .refl
  trans := .trans
  fails := failConnection_silent
  closes := closeSession_silent
  closePacket now reason encrypted _ := queueClosePacket_silent now reason encrypted _
  keepalive p := (queueSecure_queued C .keepalive [] .high p).silent
  startsClosing := startClosing_silent
  drains := endDrain_silent
  drained _ _ := silent_transitionState fun _ => rfl

theorem close_silent (now : UInt64) (reason : CloseReason) (p : Party) :
    p.Silent (p.close C now reason).2 :=
  (silent_upkeep C).close now reason p

theorem runHousekeeping_silent (now : UInt64) (p : Party) :
    (p.expireFragments now).Silent (p.runHousekeeping C now).2 :=
  (silent_upkeep C).runHousekeeping now p

theorem packetSent_silent (now : UInt64) (i len : ℕ) (p : Party) :
    p.Silent (p.packetSent now i len) := by
  have hbox : p.session.SameInbox
      { p.session with budget := p.session.budget.spend len, lastSendMs := now } :=
    Session.sameInbox_of_eq rfl rfl rfl rfl rfl rfl
  refine ⟨rfl, rfl, Or.inr hbox, ?_⟩
  rintro ⟨hside, hstate, hsock⟩
  exact ⟨hside, hstate, (noteSent_sockOpen now len p).trans hsock⟩

theorem flushAt_silent (now : UInt64) (i : ℕ) (socket : SocketResult) (p : Party) :
    p.Silent (p.flushAt now i socket).2 := by
  have hrefill := mapBudget_silent (SendBudget.refillSendBudget now) p
  unfold flushAt
  cases p.net.pending[i]? with
  | none => exact .refl p
  | some pkt =>
    dsimp only
    split_ifs
    · exact .refl p
    · exact hrefill.trans (mapBudget_silent _ _)
    · cases socket with
      | sent => exact hrefill.trans (packetSent_silent now i _ _)
      | wouldBlock => exact hrefill.trans (mapBudget_silent _ _)
      | failed => exact hrefill

theorem log_silent (h : e.isInbound = false) (p : Party) : p.Silent (p.log e) := by
  have hreceipt : e.isReceipt = false := by cases e <;> first | exact h | rfl
  exact silent_mapSession (Session.sameInbox_log hreceipt _)
    (Session.inbound_append (List.forall_mem_singleton.mpr h) rfl) fun hc => hc

/-- An acknowledgement brings nothing to the receiving half. -/
theorem dispatchAck_silent (now : UInt64) (data : Bytes) (p : Party) :
    p.Silent (p.dispatchAck C now data) := by
  unfold dispatchAck
  cases readReliableAck data with
  | error e => exact violation_silent now _ p
  | ok r =>
    obtain ⟨ch, id⟩ := r
    have hset : p.Silent (p.mapSession (Session.setReliable ch
        ((p.session.reliableFor ch).acknowledge id now).2)) :=
      silent_setReliable (f := fun _ => ((p.session.reliableFor ch).acknowledge id now).2)
        (ReliableSession.sameNumbers_acknowledge id now _).received
    have hreported := hset.trans (log_silent (e :=
      .reported ⟨ch, id, ((p.session.reliableFor ch).acknowledge id now).1⟩) rfl _)
    dsimp only
    split_ifs
    · exact hreported.trans ((log_silent (e := .acked ch id) rfl _).trans (mapBudget_silent _ _))
    · exact hreported

end Party

end SecureCnet
