import SecureCnet.Session.Sealed

/-!
# The receiving half of a session

The receive windows, the ordered buffer, the reassembler and the record of what
reached the application. Sending, retransmitting and closing leave this half
alone, except that a client clears it when its connection ends.
-/

namespace SecureCnet

/-- Events of the receiving half. -/
def Event.isReceipt : Event → Bool
  | .accepted _ _ | .passed _ _ _ _ | .reassembled _ | .emitted _ => true
  | _ => false

def Event.emittedMessage : Event → Option MsgView
  | .emitted msg => some msg
  | _ => none

namespace Session

def receipts (s : Session) : List Event := s.trace.filter Event.isReceipt

/-- The messages `emit_message` was called with, in order. -/
def emitted (s : Session) : List MsgView := s.receipts.filterMap Event.emittedMessage

structure SameInbox (s s' : Session) : Prop where
  received : ∀ ch, (s'.reliableFor ch).received = (s.reliableFor ch).received
  ordered : s'.ordered = s.ordered
  sequenced : s'.sequenced = s.sequenced
  reassembler : s'.reassembler = s.reassembler
  receipts : s'.receipts = s.receipts

/-- Nothing has been received yet. -/
structure FreshInbox (s : Session) : Prop where
  received : ∀ ch, (s.reliableFor ch).received = {}
  nextExpected : s.ordered.nextExpected = 1
  buffer : s.ordered.buffer = ∅
  sequenced : s.sequenced = {}
  entries : s.reassembler.entries = ∅
  memoryBytes : s.reassembler.memoryBytes = 0

variable {s s' s'' : Session}

theorem SameInbox.refl (s : Session) : s.SameInbox s := ⟨fun _ => rfl, rfl, rfl, rfl, rfl⟩

theorem SameInbox.trans (h : s.SameInbox s') (h' : s'.SameInbox s'') : s.SameInbox s'' :=
  ⟨fun ch => (h'.received ch).trans (h.received ch), h'.ordered.trans h.ordered,
    h'.sequenced.trans h.sequenced, h'.reassembler.trans h.reassembler,
    h'.receipts.trans h.receipts⟩

theorem sameInbox_of_eq (hr : s'.reliable.received = s.reliable.received)
    (hor : s'.orderedReliable.received = s.orderedReliable.received) (ho : s'.ordered = s.ordered)
    (hq : s'.sequenced = s.sequenced) (ha : s'.reassembler = s.reassembler)
    (ht : s'.receipts = s.receipts) : s.SameInbox s' where
  received := by
    intro ch
    unfold reliableFor
    split_ifs
    · exact hor
    · exact hr
  ordered := ho
  sequenced := hq
  reassembler := ha
  receipts := ht

theorem receipts_append {es : List Event} (hes : ∀ e ∈ es, e.isReceipt = false)
    (h : s'.trace = s.trace ++ es) : s'.receipts = s.receipts := by
  have hnil : es.filter Event.isReceipt = [] := by
    rw [List.filter_eq_nil_iff]
    intro e he
    simp [hes e he]
  rw [receipts, receipts, h, List.filter_append, hnil, List.append_nil]

@[simp] theorem receipts_log (e : Event) (s : Session) :
    (s.log e).receipts = if e.isReceipt then s.receipts ++ [e] else s.receipts := by
  cases he : e.isReceipt <;> simp [receipts, log, he]

@[simp] theorem emitted_log (e : Event) (s : Session) :
    (s.log e).emitted = s.emitted ++ e.emittedMessage.toList := by
  unfold emitted
  cases e <;> simp [Event.isReceipt, Event.emittedMessage]

theorem sameInbox_log {e : Event} (he : e.isReceipt = false) (s : Session) :
    s.SameInbox (s.log e) :=
  sameInbox_of_eq rfl rfl rfl rfl rfl (by simp [he])

theorem sameInbox_transitionState (next : ConnectionState) (s : Session) :
    s.SameInbox (s.transitionState next) := by
  unfold transitionState
  split_ifs
  · exact .refl s
  · exact sameInbox_of_eq rfl rfl rfl rfl rfl
      (receipts_append (List.forall_mem_singleton.mpr rfl) rfl)

theorem sameInbox_setReliable {ch : Channel} {rs : ReliableSession}
    (h : rs.received = (s.reliableFor ch).received) : s.SameInbox (s.setReliable ch rs) := by
  rw [setReliable_eq]
  unfold reliableFor at h
  refine sameInbox_of_eq ?_ ?_ rfl rfl rfl rfl
  · dsimp only
    split_ifs at h ⊢
    · rfl
    · exact h
  · dsimp only
    split_ifs at h ⊢
    · exact h
    · rfl

end Session

/-- A body that the dispatcher takes for a fragment. -/
def looksLikeFragment (body : Bytes) : Bool :=
  match readFragmentPayload body with
  | .ok _ => true
  | .error _ => false

theorem looksLikeFragment_iff {body : Bytes} :
    looksLikeFragment body = true ↔ ∃ f, readFragmentPayload body = .ok f := by
  unfold looksLikeFragment
  cases readFragmentPayload body <;> simp

namespace Party

variable {C : Crypto} {p p' : Party} {id : UInt64} {ch : Channel} {t : UInt8}

theorem PacketEvent.isReceipt {e : Event} (h : PacketEvent e) : e.isReceipt = false := by
  rcases h with rfl | ⟨key, nonce, rfl⟩ <;> rfl

theorem UpToNumber.sameInbox {E : Event → Prop} (h : p.UpToNumber E p')
    (hE : ∀ e, E e → e.isReceipt = false) : p.session.SameInbox p'.session := by
  obtain ⟨n, es, net, rfl, -, hes⟩ := h
  exact Session.sameInbox_of_eq rfl rfl rfl rfl rfl
    (Session.receipts_append (fun e he => hE e (hes e he)) rfl)

theorem queueControlAck_upToNumber (ch : Channel) (id : UInt64) (p : Party) :
    p.UpToNumber (fun e => PacketEvent e ∨ e = .ackQueued ch id)
      (p.queueControlAck C ch id).2 := by
  obtain ⟨rc, p', hq, ⟨e, rfl, h⟩ | ⟨rfl, h⟩⟩ := queueControlAck_queued C ch id p
  · rw [h]
    exact hq.upToNumber.mono fun _ he => Or.inl he
  · obtain ⟨n, es, net, rfl, ho, hes⟩ := hq.upToNumber
    refine ⟨n, es ++ [.ackQueued ch id], net, ?_, ho, ?_⟩
    · rw [h]
      simp [log, mapSession, Session.log]
    · intro e he
      rcases List.mem_append.mp he with he | he
      · exact Or.inl (hes e he)
      · exact Or.inr (List.mem_singleton.mp he)

theorem queueControlAck_sameInbox (ch : Channel) (id : UInt64) (p : Party) :
    p.session.SameInbox (p.queueControlAck C ch id).2.session := by
  refine (queueControlAck_upToNumber ch id p).sameInbox ?_
  rintro e (he | rfl)
  · exact he.isReceipt
  · rfl

variable (C) in
/-- A reliable frame has been acknowledged and its id shown to the receive window. -/
def accepting (ch : Channel) (id : UInt64) (p : Party) : Party :=
  ((p.queueControlAck C ch id).2.acceptIncoming ch id).2

/-- What acknowledging a frame and filtering its id does. -/
structure Accepting (ch : Channel) (id : UInt64) (p q : Party) : Prop where
  side : q.side = p.side
  otherMemory : q.otherMemory = p.otherMemory
  sockOpen : q.net.sockOpen = p.net.sockOpen
  state : q.session.state = p.session.state
  connId : q.session.connId = p.session.connId
  keys : q.session.keys = p.session.keys
  ordered : q.session.ordered = p.session.ordered
  sequenced : q.session.sequenced = p.session.sequenced
  reassembler : q.session.reassembler = p.session.reassembler
  received : ∀ ch', (q.session.reliableFor ch').received =
    if (ch' = .reliableOrdered ↔ ch = .reliableOrdered) then
      ((p.session.reliableFor ch).received.accept id).2
    else (p.session.reliableFor ch').received
  receipts : q.session.receipts = p.session.receipts ++
    if ((p.session.reliableFor ch).received.accept id).1 then [.accepted ch id] else []

theorem acceptIncoming_spec (ch : Channel) (id : UInt64) (p : Party) :
    Accepting ch id p (p.acceptIncoming ch id).2 := by
  unfold acceptIncoming ReliableSession.acceptIncoming
  cases hacc : (p.session.reliableFor ch).received.accept id with
  | mk fresh w =>
    dsimp only
    have hw : ({ p.session.reliableFor ch with received := w } : ReliableSession).received = w :=
      rfl
    generalize ({ p.session.reliableFor ch with received := w } : ReliableSession) = rs at hw
    have hset : ∀ ch', ((Session.setReliable ch rs p.session).reliableFor ch').received =
        if (ch' = .reliableOrdered ↔ ch = .reliableOrdered) then w
        else (p.session.reliableFor ch').received := by
      intro ch'
      rw [Session.reliableFor_setReliable]
      split_ifs
      · exact hw
      · rfl
    have hrec : (Session.setReliable ch rs p.session).receipts = p.session.receipts := by
      simp [Session.receipts]
    cases fresh <;> refine ⟨rfl, rfl, rfl, ?_, ?_, ?_, ?_, ?_, ?_, ?_, ?_⟩ <;>
      simp [hacc, hset, hrec, log, Event.isReceipt]

/-- Acknowledging first does not change what the window sees. -/
theorem accepting_spec (ch : Channel) (id : UInt64) (p : Party) :
    Accepting ch id p (p.accepting C ch id) := by
  have hbox := queueControlAck_sameInbox (C := C) ch id p
  obtain ⟨n, es, net, h, ho, -⟩ := queueControlAck_upToNumber (C := C) ch id p
  have hacc := acceptIncoming_spec ch id (p.queueControlAck C ch id).2
  unfold accepting
  generalize hq : (p.queueControlAck C ch id).2 = q at *
  exact {
    side := hacc.side.trans (by rw [h])
    otherMemory := hacc.otherMemory.trans (by rw [h])
    sockOpen := hacc.sockOpen.trans (by rw [h]; exact ho)
    state := hacc.state.trans (by rw [h])
    connId := hacc.connId.trans (by rw [h])
    keys := hacc.keys.trans (by rw [h])
    ordered := hacc.ordered.trans hbox.ordered
    sequenced := hacc.sequenced.trans hbox.sequenced
    reassembler := hacc.reassembler.trans hbox.reassembler
    received := fun ch' => by rw [hacc.received ch', hbox.received, hbox.received]
    receipts := by rw [hacc.receipts, hbox.received, hbox.receipts] }

theorem dispatchReliable_eq (msg : MsgView) {body : Bytes} (now : UInt64)
    (h : readReliablePayload msg.data = .ok (id, body)) (p : Party) :
    p.dispatchReliable C now msg =
      if ((p.session.reliableFor msg.channel).received.accept id).1 then
        (p.accepting C msg.channel id).dispatchBody C now msg.channel id msg.type body
      else p.accepting C msg.channel id := by
  have hbox := queueControlAck_sameInbox (C := C) msg.channel id p
  have hfresh : ((p.queueControlAck C msg.channel id).2.acceptIncoming msg.channel id).1 =
      ((p.session.reliableFor msg.channel).received.accept id).1 := by
    rw [← hbox.received]
    rfl
  unfold dispatchReliable
  rw [h]
  dsimp only
  rw [hfresh]
  rfl

theorem dispatch_reliable {body : Bytes} (now : UInt64) (hch : ch.isReliable = true) (hid : id ≠ 0)
    (hlen : body.length ≤ 0xFFFF) (p : Party) :
    p.dispatchMessageFrame C now ⟨ch, t, be64 id ++ body⟩ =
      if ((p.session.reliableFor ch).received.accept id).1 then
        (p.accepting C ch id).dispatchBody C now ch id t body
      else p.accepting C ch id := by
  have hread : readReliablePayload (be64 id ++ body) = .ok (id, body) :=
    readEnvelope_eq_ok.mpr ⟨rfl, hid, hlen⟩
  have h := dispatchReliable_eq (C := C) ⟨ch, t, be64 id ++ body⟩ now hread p
  rw [← h]
  cases ch <;> first | rfl | cases hch

theorem dispatchBody_fragment {data : Bytes} {f : FragmentView} (now : UInt64)
    (ht : t = ControlType.fragment.code) (hf : readFragmentPayload data = .ok f) (p : Party) :
    p.dispatchBody C now ch id t data =
      orViolation C now .invalidPacket (p.handleFragmentPayload now f) := by
  rw [dispatchBody, if_pos ht, hf]

/-- A frame with a piece goes to the reassembler, unless a reliable window refuses its id. -/
theorem dispatch_piece {m : FragmentedMessage} {i : UInt16} (hm : m.Sendable)
    (hi : i < m.fragmentCount) (now : UInt64) (hid : ch.isReliable = true → id ≠ 0) (p : Party) :
    p.dispatchMessageFrame C now (pieceFrame ch m id i) =
      if ch.isReliable then
        if ((p.session.reliableFor ch).received.accept id).1 then
          orViolation C now .invalidPacket
            ((p.accepting C ch id).handleFragmentPayload now (m.piece i))
        else p.accepting C ch id
      else orViolation C now .invalidPacket (p.handleFragmentPayload now (m.piece i)) := by
  have hwf := hm.piece_wellFormed hi
  have hread := readFragmentPayload_eq_ok.mpr ⟨rfl, hwf⟩
  unfold pieceFrame
  split_ifs with hch hfresh
  · have hlen : (m.piece i).encode.length ≤ 0xFFFF := by
      have := hwf.data_le
      simp
      omega
    rw [dispatch_reliable now hch (hid hch) hlen, if_pos hfresh, dispatchBody_fragment now rfl hread]
  · have hlen : (m.piece i).encode.length ≤ 0xFFFF := by
      have := hwf.data_le
      simp
      omega
    rw [dispatch_reliable now hch (hid hch) hlen, if_neg hfresh]
  · simp only [dispatchMessageFrame, dispatchControl]
    rw [if_neg (by decide), hread]
    rfl

theorem dispatchBody_user {data : Bytes} (now : UInt64)
    (h : ¬(t = ControlType.fragment.code ∧ looksLikeFragment data = true)) (p : Party) :
    p.dispatchBody C now ch id t data = p.dispatchUserData C now ch id t data := by
  unfold dispatchBody
  split_ifs with ht
  · cases hf : readFragmentPayload data with
    | error e => rfl
    | ok f => exact absurd ⟨ht, looksLikeFragment_iff.mpr ⟨f, hf⟩⟩ h
  · rfl

theorem queueClosePacket_upToNumber (now : UInt64) (reason : CloseReason) (encrypted : Bool)
    (p : Party) : p.UpToNumber PacketEvent (p.queueClosePacket C now reason encrypted).2 := by
  unfold queueClosePacket
  cases writeCloseFrame ⟨8, []⟩ reason with
  | error e => exact .refl _ p
  | ok w =>
    have hsec := (queueSecure_queued C .close w.out .high p).upToNumber
    unfold queueSecure at hsec
    cases hs : p.side with
    | client config =>
      rw [hs] at hsec
      cases encrypted with
      | true => exact hsec
      | false =>
        dsimp only
        unfold queuePacketClient
        simp only [Bool.false_and, Bool.false_eq_true, if_false, Bool.not_false, Bool.true_and]
        split_ifs
        · exact .refl _ p
        · exact ⟨_, [.drew .packet], _, rfl, sealAndEnqueue_sockOpen .., by simp [PacketEvent]⟩
    | server config =>
      rw [hs] at hsec
      cases encrypted with
      | true => exact hsec
      | false =>
        refine ⟨p.session.sendSeq, [], (p.queuePlainServer C config now .close w.out .high).2.net,
          ?_, ?_, by simp⟩
        · rw [List.append_nil]
          rfl
        · dsimp only [queuePlainServer, Transport.queuePlainPacket]
          split_ifs
          · rfl
          · rfl
          · exact sealAndEnqueue_sockOpen ..

/-- Closing a server session changes its state and history and queues a packet. -/
theorem closeSession_eq (now : UInt64) (reason : CloseReason) (p : Party) :
    ∃ n st es net, p.closeSession C now reason = { p with
        session := { p.session with
          closeReason := reason, state := st, sendSeq := n, trace := p.session.trace ++ es }
        net } ∧
      net.sockOpen = p.net.sockOpen ∧
      ∀ e ∈ es, PacketEvent e ∨ ∃ a b, e = .stateChanged a b := by
  unfold closeSession
  dsimp only
  split_ifs with hst
  · generalize Session.closesEncrypted _ = encrypted
    obtain ⟨n, es, net, h, ho, hes⟩ := queueClosePacket_upToNumber (C := C) now reason encrypted
      (p.mapSession fun s => { s with closeReason := reason })
    rw [h]
    unfold mapSession Session.transitionState
    dsimp only
    split_ifs with hsame
    · exact ⟨n, p.session.state, es, net, rfl, ho, fun e he => Or.inl (hes e he)⟩
    · refine ⟨n, .closing, es ++ [.stateChanged p.session.state .closing], net, ?_, ho, ?_⟩
      · simp [Session.log]
      · intro e he
        rcases List.mem_append.mp he with he | he
        · exact Or.inl (hes e he)
        · exact Or.inr ⟨_, _, List.mem_singleton.mp he⟩
  · exact ⟨p.session.sendSeq, p.session.state, [], p.net, by simp [mapSession], rfl, by simp⟩

theorem closeSession_sameInbox (now : UInt64) (reason : CloseReason) (p : Party) :
    p.session.SameInbox (p.closeSession C now reason).session := by
  obtain ⟨n, st, es, net, h, -, hes⟩ := closeSession_eq (C := C) now reason p
  rw [h]
  refine Session.sameInbox_of_eq rfl rfl rfl rfl rfl (Session.receipts_append ?_ rfl)
  intro e he
  rcases hes e he with he | ⟨a, b, rfl⟩
  · exact he.isReceipt
  · rfl

theorem violation_receipts (now : UInt64) (reason : CloseReason) (p : Party) :
    (p.violation C now reason).session.receipts = p.session.receipts := by
  unfold violation
  cases p.side with
  | client config => exact (Session.sameInbox_transitionState .closed _).receipts
  | server config => exact (closeSession_sameInbox now reason p).receipts

theorem orViolation_emitted (now : UInt64) (reason : CloseReason) (r : Result Unit × Party) :
    (orViolation C now reason r).session.emitted = r.2.session.emitted := by
  obtain ⟨rc, q⟩ := r
  cases rc with
  | ok u => rfl
  | error e =>
    change (q.violation C now reason).session.emitted = _
    rw [Session.emitted, violation_receipts]
    rfl

/-- A party has room for a message, by its own limits and by those of its server. -/
def Admits (p : Party) (m : FragmentedMessage) : Prop :=
  p.session.reassembler.Admits m ∧ p.overServerQuota (m.piece 0) = false

instance (p : Party) (m : FragmentedMessage) : Decidable (p.Admits m) :=
  inferInstanceAs (Decidable (_ ∧ _))

section

variable {A : UInt64 → Option FragmentedMessage} {m : FragmentedMessage} {i : UInt16}

theorem overServerQuota_piece (i : UInt16) (m : FragmentedMessage) (p : Party) :
    p.overServerQuota (m.piece i) = p.overServerQuota (m.piece 0) := rfl

theorem handleFragmentPayload_of_not_admits (hr : p.session.reassembler.Consistent A)
    (hA : A m.messageId = some m) (hm : m.Sendable) (hi : i < m.fragmentCount) (now : UInt64)
    (h : ¬p.Admits m) : (p.handleFragmentPayload now (m.piece i)).2 = p := by
  unfold handleFragmentPayload
  split_ifs with hquota
  · rfl
  have hno : ¬p.session.reassembler.Admits m := by
    intro had
    rw [overServerQuota_piece] at hquota
    exact h ⟨had, by simpa using hquota⟩
  obtain ⟨e, he⟩ := FragmentReassembler.accept_of_not_admits hr hA hm hi now
    Session.deliverReassembledMessage p.session hno
  rw [he]

/-- A piece of a message there is room for is taken in as the reassembler says. -/
theorem handleFragmentPayload_of_admits (hr : p.session.reassembler.Consistent A)
    (hA : A m.messageId = some m) (hm : m.Sendable) (hi : i < m.fragmentCount) (now : UInt64)
    (h : p.Admits m) :
    ∃ rc ra s, FragmentReassembler.AcceptPiece p.session.reassembler m i.toNat
        Session.deliverReassembledMessage p.session rc ra s ∧
      ra.Consistent A ∧ ra.cfg = p.session.reassembler.cfg ∧
      (p.handleFragmentPayload now (m.piece i)).2 =
        { p with session := { s with reassembler := ra } } ∧
      (rc = .ok () → (p.handleFragmentPayload now (m.piece i)).1 = .ok ()) := by
  have hquota : ¬p.overServerQuota (m.piece i) = true := by
    simp [overServerQuota_piece, h.2]
  obtain ⟨hpiece, hcons, hcfg⟩ := FragmentReassembler.accept_piece hr hA hm hi now
    Session.deliverReassembledMessage p.session
  refine ⟨_, _, _, hpiece, hcons, hcfg, ?_⟩
  unfold handleFragmentPayload
  rw [if_neg hquota]
  cases hacc : p.session.reassembler.accept now (m.piece i) Session.deliverReassembledMessage
      p.session with
  | mk rc rest =>
    cases rc with
    | error e => exact ⟨rfl, fun h => by cases h⟩
    | ok u => exact ⟨rfl, fun _ => rfl⟩

end

end Party

end SecureCnet
