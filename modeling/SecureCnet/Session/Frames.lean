import SecureCnet.Session.Effects

/-!
# The frames of a send

`sendFrames` lists the frames one application message travels in, in order.
`Sending` records the steps of a send together with the frames queued so far, and
`send_sending` says that a send queues an initial part of its list: all of it
when it succeeds, less than all of it when it fails.
-/

namespace SecureCnet

namespace Session

@[simp] theorem reliableFor_setReliable_self (ch : Channel) (rs : ReliableSession) (s : Session) :
    (s.setReliable ch rs).reliableFor ch = rs := by
  rw [reliableFor_setReliable, if_pos Iff.rfl]

/-- The message a fragmented send cuts up. -/
def fragmentedMessage (channel : Channel) (type : UInt8) (payload : Bytes) (s : Session) :
    FragmentedMessage where
  messageId := s.nextFragmentMessageId
  deliverySequence :=
    if channel = .reliableOrdered then s.nextOrderedSequence
    else if channel = .sequencedUnreliable then s.nextSequencedSequence
    else 0
  channel
  type
  payload

end Session

/-- The frame of one piece; on a reliable channel it is message number `id` of its own. -/
def pieceFrame (channel : Channel) (m : FragmentedMessage) (id : UInt64) (i : UInt16) : MsgView :=
  if channel.isReliable then
    ⟨channel, ControlType.fragment.code, be64 id ++ (m.piece i).encode⟩
  else ⟨.control, ControlType.fragment.code, (m.piece i).encode⟩

def pieceFrames (channel : Channel) (m : FragmentedMessage) :
    UInt64 → List UInt16 → List MsgView
  | _, [] => []
  | id, i :: is => pieceFrame channel m id i :: pieceFrames channel m (id + 1) is

/-- The frame of a message that fits into one. -/
def inlineFrame (channel : Channel) (type : UInt8) (payload : Bytes) (s : Session) : MsgView :=
  match channel with
  | .reliable => ⟨.reliable, type, be64 s.reliable.nextMessageId ++ payload⟩
  | .reliableOrdered => ⟨.reliableOrdered, type,
      be64 s.orderedReliable.nextMessageId ++ (be64 s.nextOrderedSequence ++ payload)⟩
  | .sequencedUnreliable => ⟨.sequencedUnreliable, type, be64 s.nextSequencedSequence ++ payload⟩
  | .unreliable | .control => ⟨channel, type, payload⟩

/-- All frames of a message sent in state `s`, in order. -/
def sendFrames (channel : Channel) (type : UInt8) (payload : Bytes) (s : Session) :
    List MsgView :=
  if channel.maxInlinePayloadSize < payload.length then
    let m := s.fragmentedMessage channel type payload
    pieceFrames channel m (s.reliableFor channel).nextMessageId
      (Party.pieceIndices m.fragmentCount)
  else [inlineFrame channel type payload s]

/-- The books of a session: its counters, its retransmission queues and the draws in its history. -/
def Session.Books (s s' : Session) : Prop :=
  ∃ fragment ordered sequenced reliable orderedReliable es, s' = { s with
      nextFragmentMessageId := fragment
      nextOrderedSequence := ordered
      nextSequencedSequence := sequenced
      reliable, orderedReliable
      trace := s.trace ++ es } ∧ ∀ e ∈ es, ∃ k ≠ .packet, e = .drew k

namespace Party

variable (C : Crypto) (priority : SendPriority)

/-- The message has its id and waits in the retransmission queue. -/
def enqueued (ch : Channel) (rs : ReliableSession) (p : Party) : Party :=
  (p.mapSession (Session.setReliable ch rs)).log (.drew (.message ch))

/-- The retransmission queue takes a message under the next id. -/
structure Enqueues (p : Party) (ch : Channel) (m : PendingReliableMessage)
    (rs : ReliableSession) : Prop where
  channel : ch.isReliable = true
  messageId : m.messageId = (p.session.reliableFor ch).nextMessageId
  messageId_ne : m.messageId ≠ 0
  encoded : ∃ body, m.encodedPayload = be64 m.messageId ++ body
  next : rs.nextMessageId = (p.session.reliableFor ch).nextMessageId + 1
  pending : rs.pending = ReliableSession.insertPending m (p.session.reliableFor ch).pending
  received : rs.received = (p.session.reliableFor ch).received

/-- The steps of a send, with the frames it has queued. -/
inductive Sending (p : Party) : List MsgView → Party → Prop
  | start : Sending p [] p
  | drawFragmentId {msgs : List MsgView} {q : Party} (h : Sending p msgs q) :
      Sending p msgs (q.mapSession Session.drawFragmentId)
  | drawOrdered {msgs : List MsgView} {q : Party} (h : Sending p msgs q) :
      Sending p msgs (q.mapSession Session.drawOrdered)
  | drawSequenced {msgs : List MsgView} {q : Party} (h : Sending p msgs q) :
      Sending p msgs (q.mapSession Session.drawSequenced)
  /-- A reliable message takes its id and is refused. -/
  | burned {msgs : List MsgView} {q : Party} (h : Sending p msgs q) (ch : Channel)
      (hch : ch.isReliable = true) :
      Sending p msgs (q.enqueued ch { q.session.reliableFor ch with
        nextMessageId := (q.session.reliableFor ch).nextMessageId + 1 })
  /-- A frame is not queued. -/
  | lost {msgs : List MsgView} {q q' : Party} (h : Sending p msgs q) (payload : Bytes) (e : Failure)
      (hq : Queued C q .message payload priority (.error e) q') : Sending p msgs q'
  /-- A frame of an unreliable channel. -/
  | frame {msgs : List MsgView} {q q' : Party} (h : Sending p msgs q) (msg : MsgView)
      (hch : msg.channel.isReliable = false)
      (hq : Queued C q .message msg.encode priority (.ok ()) q') : Sending p (msgs ++ [msg]) q'
  /-- A reliable message that could not be queued leaves the retransmission queue again. -/
  | withdrawn {msgs : List MsgView} {q q' : Party} (h : Sending p msgs q) (ch : Channel)
      (m : PendingReliableMessage) (rs : ReliableSession) (e : Failure) (now : UInt64)
      (henq : Enqueues q ch m rs)
      (hq : Queued C (q.enqueued ch rs) .message
        (MsgView.encode ⟨ch, m.userType, m.encodedPayload⟩) priority (.error e) q') :
      Sending p msgs (q'.mapSession fun s =>
        s.setReliable ch ((s.reliableFor ch).acknowledge m.messageId now).2)
  | reliable {msgs : List MsgView} {q q' : Party} (h : Sending p msgs q) (ch : Channel)
      (m : PendingReliableMessage) (rs : ReliableSession) (now : UInt64)
      (henq : Enqueues q ch m rs)
      (hq : Queued C (q.enqueued ch rs) .message
        (MsgView.encode ⟨ch, m.userType, m.encodedPayload⟩) priority (.ok ()) q') :
      Sending p (msgs ++ [⟨ch, m.userType, m.encodedPayload⟩]) (q'.mapSession fun s =>
        s.setReliable ch ((s.reliableFor ch).noteSent m.messageId now).2)

variable {C priority} {p q q' : Party} {msgs : List MsgView} {rc : Result Unit} {payload : Bytes}
  {now : UInt64} {t : UInt8} {msg : MsgView} {i : UInt16} {m : FragmentedMessage} {o : SendOptions}
  {r : Result Unit × Party}

@[simp] theorem enqueued_reliableFor (ch : Channel) (rs : ReliableSession) (p : Party) :
    (p.enqueued ch rs).session.reliableFor ch = rs :=
  Session.reliableFor_setReliable_self ch rs p.session

theorem Sending.trans {msgs' : List MsgView} (h : Sending C priority p msgs q)
    (h' : Sending C priority q msgs' q') : Sending C priority p (msgs ++ msgs') q' := by
  induction h' with
  | start => simpa using h
  | drawFragmentId _ ih => exact .drawFragmentId ih
  | drawOrdered _ ih => exact .drawOrdered ih
  | drawSequenced _ ih => exact .drawSequenced ih
  | burned _ ch hch ih => exact .burned ih ch hch
  | lost _ payload e hq ih => exact .lost ih payload e hq
  | frame _ msg hch hq ih =>
    rw [← List.append_assoc]
    exact .frame ih msg hch hq
  | withdrawn _ ch m rs e now henq hq ih => exact .withdrawn ih ch m rs e now henq hq
  | reliable _ ch m rs now henq hq ih =>
    rw [← List.append_assoc]
    exact .reliable ih ch m rs now henq hq

theorem books_setReliable (ch : Channel) (rs : ReliableSession) (s : Session) :
    s.Books (s.setReliable ch rs) :=
  ⟨_, _, _, _, _, [], by rw [Session.setReliable_eq, List.append_nil], by simp⟩

theorem books_enqueued (ch : Channel) (rs : ReliableSession) (p : Party) :
    p.session.Books (p.enqueued ch rs).session :=
  ⟨_, _, _, _, _, [.drew (.message ch)], by
    rw [enqueued, log, mapSession_session, mapSession_session, Session.setReliable_eq]
    rfl, by simp⟩

/-- A send queues packets and keeps books. -/
theorem Sending.rule {R : Party → Party → Prop} (hrefl : ∀ p, R p p)
    (htrans : ∀ {p q r}, R p q → R q r → R p r)
    (hbooks : ∀ p s, p.session.Books s → R p { p with session := s })
    (hqueued : ∀ {p q : Party} {payload : Bytes} {rc : Result Unit},
      Queued C p .message payload priority rc q → R p q)
    (h : Sending C priority p msgs q) : R p q := by
  have hset := fun ch rs q => hbooks q _ (books_setReliable ch rs q.session)
  have henqueued := fun ch rs q => hbooks q _ (books_enqueued ch rs q)
  induction h with
  | start => exact hrefl p
  | drawFragmentId _ ih => exact htrans ih (hbooks _ _ ⟨_, _, _, _, _, [_], rfl, by simp⟩)
  | drawOrdered _ ih => exact htrans ih (hbooks _ _ ⟨_, _, _, _, _, [_], rfl, by simp⟩)
  | drawSequenced _ ih => exact htrans ih (hbooks _ _ ⟨_, _, _, _, _, [_], rfl, by simp⟩)
  | burned _ ch _ ih => exact htrans ih (henqueued ch _ _)
  | lost _ _ _ hq ih => exact htrans ih (hqueued hq)
  | frame _ _ _ hq ih => exact htrans ih (hqueued hq)
  | withdrawn _ ch m rs _ now _ hq ih =>
    exact htrans (htrans (htrans ih (henqueued ch rs _)) (hqueued hq)) (hset ch _ _)
  | reliable _ ch m rs now _ hq ih =>
    exact htrans (htrans (htrans ih (henqueued ch rs _)) (hqueued hq)) (hset ch _ _)

theorem Queued.trace_prefix {kind : PacketKind} (h : Queued C p kind payload priority rc q) :
    p.session.trace <+: q.session.trace := by
  obtain ⟨n, es, net, rfl, -⟩ := h.upToNumber
  exact List.prefix_append _ es

theorem enqueued_trace (ch : Channel) (rs : ReliableSession) (p : Party) :
    (p.enqueued ch rs).session.trace = p.session.trace ++ [.drew (.message ch)] := by
  simp [enqueued, log]

/-- The history of a send only grows. -/
theorem Sending.trace_prefix (h : Sending C priority p msgs q) :
    p.session.trace <+: q.session.trace := by
  refine h.rule (R := fun p q => p.session.trace <+: q.session.trace)
    (fun _ => List.prefix_refl _) List.IsPrefix.trans ?_ Queued.trace_prefix
  rintro p s ⟨_, _, _, _, _, es, rfl, -⟩
  exact List.prefix_append _ es

theorem Sending.drawn_le (h : Sending C priority p msgs q) (k : Counter) :
    p.session.drawn k ≤ q.session.drawn k :=
  h.trace_prefix.sublist.count_le _

theorem Queued.reliableFor_eq {kind : PacketKind} (h : Queued C p kind payload priority rc q)
    (ch : Channel) : q.session.reliableFor ch = p.session.reliableFor ch := by
  obtain ⟨n, es, net, rfl, -⟩ := h.upToNumber
  exact Session.reliableFor_congr rfl rfl

theorem mapSession_setReliable_self (ch : Channel) (p : Party) :
    p.mapSession (Session.setReliable ch (p.session.reliableFor ch)) = p := by
  obtain ⟨side, s, net, mem⟩ := p
  simp only [mapSession, Session.setReliable_eq, Session.reliableFor]
  congr 1
  split_ifs <;> rfl

/-- A reliable send queues its frame, or fails and queues nothing. -/
theorem sendReliableMessage_sending {ch : Channel} (hch : ch.isReliable = true) {d : Bytes}
    {life : UInt64} (h : Sending C priority p msgs q)
    (hs : q.sendReliableMessage C ch t d priority life now = (rc, q')) :
    (rc = .ok () ∧
      Sending C priority p
        (msgs ++ [⟨ch, t, be64 (q.session.reliableFor ch).nextMessageId ++ d⟩]) q' ∧
      (q'.session.reliableFor ch).nextMessageId = (q.session.reliableFor ch).nextMessageId + 1) ∨
    ((∃ e, rc = .error e) ∧ Sending C priority p msgs q') := by
  unfold sendReliableMessage at hs
  split_ifs at hs with hlen
  · cases hs
    exact Or.inr ⟨⟨_, rfl⟩, h⟩
  rcases (q.session.reliableFor ch).enqueue_cases t d priority life now with
    ⟨msg, he⟩ | ⟨msg, he, -⟩ | ⟨m, rs, he, hne, -, hm, -, -, hpend, -, hnext, hrecv⟩
  · rw [he] at hs
    simp only [fail, if_true, mapSession_setReliable_self] at hs
    cases hs
    exact Or.inr ⟨⟨_, rfl⟩, h⟩
  · rw [he] at hs
    simp only [fail, reduceCtorEq, if_false] at hs
    cases hs
    exact Or.inr ⟨⟨_, rfl⟩, .burned h ch hch⟩
  · rw [he] at hs
    obtain ⟨hid, ht, henc⟩ : m.messageId = (q.session.reliableFor ch).nextMessageId ∧
        m.userType = t ∧ m.encodedPayload = be64 (q.session.reliableFor ch).nextMessageId ++ d := by
      simpa [PendingReliableMessage.content] using hm
    have henq : Enqueues q ch m rs :=
      ⟨hch, hid, by rw [hid]; exact hne, ⟨d, by rw [hid]; exact henc⟩, hnext, hpend, hrecv⟩
    have hq := queueMessagePacket_queued C ch t m.encodedPayload priority (q.enqueued ch rs)
    dsimp only at hs
    rw [← enqueued] at hs
    subst ht
    cases hr : (q.enqueued ch rs).queueMessagePacket C ch m.userType m.encodedPayload priority with
    | mk rc' r =>
      rw [hr] at hs hq
      cases rc' with
      | error e =>
        cases hs
        exact Or.inr ⟨⟨_, rfl⟩, .withdrawn h ch m rs e now henq hq⟩
      | ok u =>
        cases hs
        left
        refine ⟨rfl, ?_, ?_⟩
        · rw [← henc]
          exact .reliable h ch m rs now henq hq
        · have hfor := hq.reliableFor_eq ch
          simp only [mapSession_session, Session.reliableFor_setReliable_self,
            (ReliableSession.sameNumbers_noteSent _ _ _).nextMessageId, hfor,
            enqueued_reliableFor, hnext]

/-- The reliable frames of a send carry a number other than zero. -/
theorem Sending.messageId_ne (h : Sending C priority p msgs q) (hm : msg ∈ msgs)
    (hch : msg.channel.isReliable = true) : ∃ id body, id ≠ 0 ∧ msg.data = be64 id ++ body := by
  induction h with
  | start => cases hm
  | drawFragmentId _ ih | drawOrdered _ ih | drawSequenced _ ih => exact ih hm
  | burned _ _ _ ih => exact ih hm
  | lost _ _ _ _ ih => exact ih hm
  | withdrawn _ _ _ _ _ _ _ _ ih => exact ih hm
  | frame _ msg' hch' _ ih =>
    rcases List.mem_append.mp hm with hm | hm
    · exact ih hm
    · rw [List.mem_singleton.mp hm, hch'] at hch
      cases hch
  | reliable _ ch m rs now henq hq ih =>
    rcases List.mem_append.mp hm with hm | hm
    · exact ih hm
    · obtain ⟨body, hbody⟩ := henq.encoded
      rw [List.mem_singleton.mp hm]
      exact ⟨m.messageId, body, henq.messageId_ne, hbody⟩

theorem piece_data_eq (hshort : m.payload.length < 2 ^ 16) (hi : i < m.fragmentCount) :
    (m.payload.drop (i.toNat * NetConfig.maxFragmentDataBytes)).take
        (fragmentSizeForIndex m.originalLength i).toNat =
      Chunks.chunk NetConfig.maxFragmentDataBytes i.toNat m.payload := by
  have hlen : m.originalLength.toNat = m.payload.length := by
    rw [FragmentedMessage.originalLength, UInt16.toNat_ofNat', Nat.mod_eq_of_lt hshort]
  unfold Chunks.chunk
  rw [List.take_eq_take_iff, fragmentSizeForIndex_toNat (UInt16.lt_iff_toNat_lt.mp hi), hlen,
    List.length_drop, NetConfig.maxFragmentDataBytes_eq]
  omega

/-- One piece is queued as its frame, or not at all. -/
theorem sendPiece_sending (ho : o.priority = priority) (happ : m.channel ≠ .control)
    (hpos : 0 < m.payload.length) (hshort : m.payload.length < 2 ^ 16) (hi : i < m.fragmentCount)
    (h : Sending C priority p msgs q) (hs : q.sendPiece C o now m i = (rc, q')) :
    (rc = .ok () ∧ m.messageId ≠ 0 ∧
      Sending C priority p
        (msgs ++ [pieceFrame o.channel m (q.session.reliableFor o.channel).nextMessageId i]) q' ∧
      (o.channel.isReliable = true → (q'.session.reliableFor o.channel).nextMessageId =
        (q.session.reliableFor o.channel).nextMessageId + 1)) ∨
    ((∃ e, rc = .error e) ∧ Sending C priority p msgs q') := by
  unfold sendPiece at hs
  dsimp only at hs
  rw [piece_data_eq hshort hi, ← FragmentedMessage.piece] at hs
  by_cases hid : m.messageId = 0
  · have hpid : (m.piece i).messageId = 0 := hid
    rw [writeFragmentPayload, if_pos hpid] at hs
    cases hs
    exact Or.inr ⟨⟨_, rfl⟩, h⟩
  have hw := (FragmentedMessage.Sendable.piece_wellFormed ⟨hid, happ, hpos, hshort⟩ hi)
  have hwrite := writeFragmentPayload_eq hw ⟨NetConfig.maxMessageBytes, []⟩
  rw [ByteWriter.writeBytes_fresh, if_pos (by
    have := hw.data_le
    simp
    omega)] at hwrite
  rw [hwrite] at hs
  dsimp only at hs
  split_ifs at hs with hrel
  · rw [ho] at hs
    rcases sendReliableMessage_sending hrel h hs with ⟨hok, hsend, hnext⟩ | hfail
    · left
      refine ⟨hok, hid, ?_, fun _ => hnext⟩
      rw [pieceFrame, if_pos hrel]
      exact hsend
    · exact Or.inr hfail
  · have hq := queueInternalMessage_queued C .control ControlType.fragment.code (m.piece i).encode
      priority q
    rw [ho] at hs
    rw [hs] at hq
    cases rc with
    | error e => exact Or.inr ⟨⟨e, rfl⟩, .lost h _ e hq⟩
    | ok u =>
      left
      refine ⟨rfl, hid, ?_, fun hr => absurd hr hrel⟩
      rw [pieceFrame, if_neg hrel]
      exact .frame h _ rfl hq

theorem pieceFrames_of_unreliable {ch : Channel} (hch : ch.isReliable = false)
    (m : FragmentedMessage) (id id' : UInt64) (is : List UInt16) :
    pieceFrames ch m id is = pieceFrames ch m id' is := by
  induction is generalizing id id' with
  | nil => rfl
  | cons i is ih =>
    simp only [pieceFrames, pieceFrame, hch, Bool.false_eq_true, if_false]
    rw [ih (id + 1) (id' + 1)]

/-- The fragment loop queues an initial part of its frames, all of them exactly on success. -/
theorem sendPieces_sending (ho : o.priority = priority) (happ : m.channel ≠ .control)
    (hpos : 0 < m.payload.length) (hshort : m.payload.length < 2 ^ 16) (is : List UInt16)
    (his : ∀ i ∈ is, i < m.fragmentCount) (h : Sending C priority p msgs q)
    (hs : q.sendPieces C o now m is = (rc, q')) :
    ∃ sent rest, pieceFrames o.channel m (q.session.reliableFor o.channel).nextMessageId is =
        sent ++ rest ∧ (rc = .ok () ↔ rest = []) ∧ Sending C priority p (msgs ++ sent) q' ∧
      (sent ≠ [] → m.messageId ≠ 0) := by
  induction is generalizing q msgs with
  | nil =>
    cases hs
    exact ⟨[], [], rfl, by simp, by simpa using h, by simp⟩
  | cons i is ih =>
    unfold sendPieces at hs
    cases hr : q.sendPiece C o now m i with
    | mk rc₁ q₁ =>
      have hpiece := sendPiece_sending ho happ hpos hshort (his i (by simp)) h hr
      rw [hr] at hs
      rcases hpiece with ⟨hok, hid, hsend, hnext⟩ | ⟨⟨e, he⟩, hsend⟩
      · subst hok
        obtain ⟨sent, rest, heq, hiff, hsend', -⟩ :=
          ih (fun j hj => his j (List.mem_cons_of_mem _ hj)) hsend hs
        refine ⟨pieceFrame o.channel m (q.session.reliableFor o.channel).nextMessageId i :: sent,
          rest, ?_, hiff, by simpa using hsend', fun _ => hid⟩
        simp only [pieceFrames, List.cons_append, List.cons.injEq, true_and]
        rw [← heq]
        cases hrel : o.channel.isReliable with
        | true => rw [hnext hrel]
        | false => exact pieceFrames_of_unreliable hrel _ _ _ _
      · subst he
        cases hs
        exact ⟨[], _, rfl, by simp, by simpa using hsend, by simp⟩

theorem lt_of_mem_pieceIndices {count : UInt16} (h : i ∈ pieceIndices count) : i < count := by
  unfold pieceIndices at h
  obtain ⟨n, hn, rfl⟩ := List.mem_map.mp h
  have hlt := List.mem_range.mp hn
  have hmax := count.toNat_lt
  rw [UInt16.lt_iff_toNat_lt, UInt16.toNat_ofNat', Nat.mod_eq_of_lt (by omega)]
  exact hlt

/-- What a successful send has checked. -/
structure SendOk (o : SendOptions) (payload : Bytes) (s : Session) : Prop where
  established : s.state = .established
  application : o.channel ≠ .control
  short : payload.length ≤ 0xFFFF
  ordered : payload.length ≤ o.channel.maxInlinePayloadSize → o.channel = .reliableOrdered →
    s.nextOrderedSequence ≠ 0
  sequenced : payload.length ≤ o.channel.maxInlinePayloadSize →
    o.channel = .sequencedUnreliable → s.nextSequencedSequence ≠ 0
  fragmented : o.channel.maxInlinePayloadSize < payload.length → s.nextFragmentMessageId ≠ 0

/-- The numbers a message carries were drawn for it. -/
structure DrawsNumbers (o : SendOptions) (payload : Bytes) (s s' : Session) : Prop where
  fragment : o.channel.maxInlinePayloadSize < payload.length →
    s.drawn .fragment < s'.drawn .fragment
  ordered : o.channel = .reliableOrdered → s.drawn .ordered < s'.drawn .ordered

/-- A send queues an initial part of its frames, all of them exactly on success. -/
def SendSpec (C : Crypto) (o : SendOptions) (t : UInt8) (payload : Bytes) (p : Party)
    (r : Result Unit × Party) : Prop :=
  ∃ sent, Sending C o.priority p sent r.2 ∧
    sent <+: sendFrames o.channel t payload p.session ∧
    (r.1 = .ok () → sent ≠ []) ∧
    (sent ≠ [] → SendOk o payload p.session ∧ DrawsNumbers o payload p.session r.2.session ∧
      (r.1 = .ok () ↔ sent = sendFrames o.channel t payload p.session))

theorem SendSpec.refused (code : Errc) (msg : String) (h : Sending C o.priority p [] q) :
    SendSpec C o t payload p (fail code msg, q) :=
  ⟨[], h, List.nil_prefix, fun h => absurd h (Result.fail_ne_ok code msg ()),
    fun h => absurd rfl h⟩

theorem SendSpec.none (h : Sending C o.priority p [] r.2) (he : ∃ e, r.1 = .error e) :
    SendSpec C o t payload p r := by
  refine ⟨[], h, List.nil_prefix, ?_, fun h => absurd rfl h⟩
  intro hok
  obtain ⟨e, he⟩ := he
  rw [he] at hok
  cases hok

theorem SendSpec.single (h : Sending C o.priority p [msg] r.2) (hr : r.1 = .ok ())
    (hok : SendOk o payload p.session) (hd : DrawsNumbers o payload p.session r.2.session)
    (hframes : sendFrames o.channel t payload p.session = [msg]) : SendSpec C o t payload p r := by
  refine ⟨[msg], h, ?_, by simp, ?_⟩
  · rw [hframes]
  · intro _
    exact ⟨hok, hd, by simp [hr, hframes]⟩

theorem fragmentCount_pos (hpos : 0 < m.payload.length) (hshort : m.payload.length < 2 ^ 16) :
    0 < m.fragmentCount.toNat := by
  rw [FragmentedMessage.fragmentCount, fragmentCountForLength_toNat,
    FragmentedMessage.originalLength, UInt16.toNat_ofNat', Nat.mod_eq_of_lt hshort]
  omega

/-- The state the fragment loop starts in: the numbers of the message are drawn. -/
theorem drawDeliverySequence_sending (priority : SendPriority) (ch : Channel) (p : Party) :
    Sending C priority p []
        ((p.mapSession Session.drawFragmentId).drawDeliverySequence ch).2 ∧
      ((p.mapSession Session.drawFragmentId).drawDeliverySequence ch).1 =
        (p.session.fragmentedMessage ch 0 []).deliverySequence ∧
      ((p.mapSession Session.drawFragmentId).drawDeliverySequence ch).2.session.reliableFor ch =
        p.session.reliableFor ch ∧
      p.session.drawn .fragment <
        ((p.mapSession Session.drawFragmentId).drawDeliverySequence ch).2.session.drawn .fragment ∧
      (ch = .reliableOrdered → p.session.drawn .ordered <
        ((p.mapSession Session.drawFragmentId).drawDeliverySequence ch).2.session.drawn
          .ordered) := by
  have hfrag : Sending C priority p [] (p.mapSession Session.drawFragmentId) :=
    .drawFragmentId .start
  unfold drawDeliverySequence Session.fragmentedMessage
  split_ifs with h1 h2
  · refine ⟨.drawOrdered hfrag, rfl, ?_, ?_, ?_⟩
    · simp only [mapSession, Session.drawOrdered, Session.drawFragmentId, Session.log,
        Session.reliableFor]
    · simp [Session.drawn, Session.drawOrdered, Session.drawFragmentId, Session.log]
    · simp [Session.drawn, Session.drawOrdered, Session.drawFragmentId, Session.log]
  · refine ⟨.drawSequenced hfrag, rfl, ?_, ?_, fun h => absurd h h1⟩
    · simp only [mapSession, Session.drawSequenced, Session.drawFragmentId, Session.log,
        Session.reliableFor]
    · simp [Session.drawn, Session.drawSequenced, Session.drawFragmentId, Session.log]
  · refine ⟨hfrag, rfl, ?_, ?_, fun h => absurd h h1⟩
    · simp only [mapSession, Session.drawFragmentId, Session.log, Session.reliableFor]
    · simp [Session.drawn, Session.drawFragmentId, Session.log]

theorem sendFragmented_spec (hest : p.session.state = .established) (happ : o.channel ≠ .control)
    (hlen : payload.length ≤ 0xFFFF) (hfrag : o.channel.maxInlinePayloadSize < payload.length) :
    SendSpec C o t payload p (p.sendFragmented C o t payload now) := by
  unfold sendFragmented
  dsimp only
  split_ifs
  · exact .refused _ _ .start
  · exact .refused _ _ .start
  · exact .refused _ _ .start
  · exact .refused _ _ .start
  obtain ⟨hstart, hseq, hfor, hdf, hdo⟩ :=
    drawDeliverySequence_sending (C := C) o.priority o.channel p
  rw [hseq]
  generalize ((p.mapSession Session.drawFragmentId).drawDeliverySequence o.channel).2 = q at *
  have hpos : 0 < payload.length := by omega
  have hshort : payload.length < 2 ^ 16 := by omega
  change SendSpec C o t payload p (q.sendPieces C o now (p.session.fragmentedMessage o.channel t
    payload) (pieceIndices (p.session.fragmentedMessage o.channel t payload).fragmentCount))
  have hcount := fragmentCount_pos (m := p.session.fragmentedMessage o.channel t payload) hpos hshort
  have hid0 : (p.session.fragmentedMessage o.channel t payload).messageId =
      p.session.nextFragmentMessageId := rfl
  generalize hm : p.session.fragmentedMessage o.channel t payload = m at *
  have hmp : m.payload = payload := by rw [← hm]; rfl
  have hframes : sendFrames o.channel t payload p.session =
      pieceFrames o.channel m (q.session.reliableFor o.channel).nextMessageId
        (pieceIndices m.fragmentCount) := by
    rw [sendFrames, if_pos hfrag, hm, hfor]
  have hne : pieceFrames o.channel m (q.session.reliableFor o.channel).nextMessageId
      (pieceIndices m.fragmentCount) ≠ [] := by
    cases hl : pieceIndices m.fragmentCount with
    | nil =>
      have := congrArg List.length hl
      simp [pieceIndices] at this
      omega
    | cons i is => simp [pieceFrames]
  obtain ⟨sent, rest, heq, hiff, hsend, hid⟩ := sendPieces_sending (m := m) rfl
    (by rw [← hm]; exact happ) (by rw [hmp]; exact hpos) (by rw [hmp]; exact hshort)
    (pieceIndices m.fragmentCount) (fun i hi => lt_of_mem_pieceIndices hi) (.start)
    (Prod.eta (q.sendPieces C o now m (pieceIndices m.fragmentCount))).symm
  rw [List.nil_append] at hsend
  have hmono := hsend.drawn_le
  refine ⟨sent, hstart.trans hsend, ?_, ?_, ?_⟩
  · rw [hframes, heq]
    exact List.prefix_append sent rest
  · intro hok hnil
    rw [hiff.mp hok, hnil] at heq
    exact hne heq
  · intro hsent
    refine ⟨⟨hest, happ, hlen, fun h => absurd h (by omega), fun h => absurd h (by omega),
      fun _ => ?_⟩, ⟨fun _ => hdf.trans_le (hmono _), fun h => (hdo h).trans_le (hmono _)⟩, ?_⟩
    · rw [← hid0]
      exact hid hsent
    · rw [hframes, heq, hiff]
      simp

/-- A frame that is queued at once or not at all. -/
theorem SendSpec.queued (hq : Queued C q .message msg.encode o.priority r.1 r.2)
    (hch : msg.channel.isReliable = false) (h : Sending C o.priority p [] q)
    (hok : SendOk o payload p.session) (hord : o.channel ≠ .reliableOrdered)
    (hin : ¬o.channel.maxInlinePayloadSize < payload.length)
    (hframes : sendFrames o.channel t payload p.session = [msg]) : SendSpec C o t payload p r := by
  obtain ⟨rc, q'⟩ := r
  cases rc with
  | error e => exact .none (.lost h _ e hq) ⟨e, rfl⟩
  | ok u =>
    exact .single (.frame h msg hch hq) rfl hok
      ⟨fun h => absurd h hin, fun h => absurd h hord⟩ hframes

theorem SendSpec.reliable {t' : UInt8} {d : Bytes} (hch : o.channel.isReliable = true)
    (h : Sending C o.priority p [] q) (hok : SendOk o payload p.session)
    (hd : DrawsNumbers o payload p.session q.session) (hframes : sendFrames o.channel t payload
      p.session = [⟨o.channel, t', be64 (q.session.reliableFor o.channel).nextMessageId ++ d⟩]) :
    SendSpec C o t payload p
      (q.sendReliableMessage C o.channel t' d o.priority o.lifetimeMs now) := by
  have heta := Prod.eta (q.sendReliableMessage C o.channel t' d o.priority o.lifetimeMs now)
  rcases sendReliableMessage_sending hch (.start (C := C) (p := q)) heta.symm with
    ⟨hrc, hsend, -⟩ | ⟨he, hsend⟩
  · have hmono := hsend.drawn_le
    exact .single (h.trans hsend) hrc hok
      ⟨fun h => (hd.fragment h).trans_le (hmono _), fun h => (hd.ordered h).trans_le (hmono _)⟩
      hframes
  · exact .none (h.trans hsend) he

theorem send_of_not_established (h : p.session.state ≠ .established) (o : SendOptions) (t : UInt8)
    (payload : Bytes) (now : UInt64) :
    p.send C o t payload now = (fail .stateError (notEstablishedMsg p.side), p) := by
  unfold send
  rw [if_pos h]

/-- The whole send path: an initial part of the frames is queued, all of them on success. -/
theorem send_spec (o : SendOptions) (t : UInt8) (payload : Bytes) (now : UInt64) (p : Party) :
    SendSpec C o t payload p (p.send C o t payload now) := by
  unfold send
  split_ifs with hest happ hlen hfrag hrel hord hseq
  · exact .refused _ _ .start
  · exact .refused _ _ .start
  · exact .refused _ _ .start
  · refine sendFragmented_spec (not_not.mp hest) ?_ (not_lt.mp hlen) hfrag
    simpa [Channel.isApplication] using happ
  all_goals
    have happ' : o.channel ≠ .control := by simpa [Channel.isApplication] using happ
    have hframes := sendFrames.eq_1 o.channel t payload p.session
    rw [if_neg hfrag] at hframes
  · have hok : SendOk o payload p.session := ⟨not_not.mp hest, happ', not_lt.mp hlen,
      by simp [hrel], by simp [hrel], fun h => absurd h hfrag⟩
    have hspec : SendSpec C o t payload p
        (p.sendReliableMessage C o.channel t payload o.priority o.lifetimeMs now) :=
      .reliable (by rw [hrel]; rfl) .start hok ⟨fun h => absurd h hfrag, by simp [hrel]⟩
        (by rw [hframes, hrel]; rfl)
    rwa [hrel] at hspec
  · dsimp only
    rw [writeOrderedPayload, writeEnvelope_eq]
    split_ifs with h0 hbig
    · exact .refused _ _ (.drawOrdered .start)
    · exact .refused _ _ (.drawOrdered .start)
    have hok : SendOk o payload p.session := ⟨not_not.mp hest, happ', not_lt.mp hlen,
      fun _ _ => h0, by simp [hord], fun h => absurd h hfrag⟩
    rw [ByteWriter.writeBytes_fresh, if_pos (by simp at hbig ⊢; omega)]
    have hdraw : DrawsNumbers o payload p.session (p.mapSession Session.drawOrdered).session :=
      ⟨fun h => absurd h hfrag, fun _ => by simp [Session.drawn, Session.drawOrdered, Session.log]⟩
    have hspec : SendSpec C o t payload p
        ((p.mapSession Session.drawOrdered).sendReliableMessage C o.channel t
          (be64 p.session.nextOrderedSequence ++ payload) o.priority o.lifetimeMs now) :=
      .reliable (by rw [hord]; rfl) (.drawOrdered .start) hok hdraw
        (by rw [hframes, hord]; rfl)
    rwa [hord] at hspec
  · dsimp only
    rw [writeSequencedPayload, writeEnvelope_eq]
    split_ifs with h0 hbig
    · exact .refused _ _ (.drawSequenced .start)
    · exact .refused _ _ (.drawSequenced .start)
    have hok : SendOk o payload p.session := ⟨not_not.mp hest, happ', not_lt.mp hlen,
      by simp [hseq], fun _ _ => h0, fun h => absurd h hfrag⟩
    rw [ByteWriter.writeBytes_fresh, if_pos (by simp at hbig ⊢; omega)]
    exact .queued (queueMessagePacket_queued C .sequencedUnreliable t _ o.priority _) rfl
      (.drawSequenced .start) hok hord hfrag (by rw [hframes, hseq]; rfl)
  · have hun : o.channel = .unreliable := by
      cases hc : o.channel <;> simp_all
    have hok : SendOk o payload p.session := ⟨not_not.mp hest, happ', not_lt.mp hlen,
      fun _ h => absurd h hord, fun _ h => absurd h hseq, fun h => absurd h hfrag⟩
    exact .queued (queueMessagePacket_queued C .unreliable t payload o.priority p) rfl .start hok
      hord hfrag (by rw [hframes, hun]; rfl)

end Party

end SecureCnet
