import Mathlib.Data.List.Iterate
import SecureCnet.Session.Admission
import SecureCnet.Session.Attention

/-!
# Transmissions of a session

A reliable send posts the bodies of its frames one after the other and stops at the
first that is refused. `transmitted` and `pumped` list the frames of reliable messages
that a send and a retransmission pass put into the packet queue.
-/

namespace SecureCnet

/-- The frame of a reliable message goes into the packet queue. -/
structure Transmission where
  channel : Channel
  messageId : UInt64
  nowMs : UInt64
  deriving DecidableEq, Repr

/-- The transmission a frame stands for, if it is the frame of a reliable message. -/
def MsgView.transmission (now : UInt64) (msg : MsgView) : List Transmission :=
  if msg.channel.isReliable then
    match ByteReader.readU64 msg.data with
    | .error _ => []
    | .ok (messageId, _) => [⟨msg.channel, messageId, now⟩]
  else []

/-- Frames of reliable messages with ids from `id` on. -/
def numbered (ch : Channel) (type : UInt8) : UInt64 → List Bytes → List MsgView
  | _, [] => []
  | id, body :: bodies => ⟨ch, type, be64 id ++ body⟩ :: numbered ch type (id + 1) bodies

section Numbered

variable {ch : Channel} (t : UInt8) (id : UInt64)

theorem map_length_numbered (bodies : List Bytes) :
    (numbered ch t id bodies).map (fun msg => msg.data.length) =
      bodies.map fun body => 8 + body.length := by
  induction bodies generalizing id with
  | nil => rfl
  | cons body bodies ih => simp [numbered, ih]

theorem flatMap_take_numbered (hch : ch.isReliable = true) (now : UInt64) {k : ℕ}
    {bodies : List Bytes} (hk : k ≤ bodies.length) :
    ((numbered ch t id bodies).take k).flatMap (MsgView.transmission now) =
      (List.iterate (· + 1) id k).map fun id => ⟨ch, id, now⟩ := by
  induction bodies generalizing id k with
  | nil =>
    obtain rfl : k = 0 := Nat.le_zero.mp hk
    rfl
  | cons body bodies ih =>
    cases k with
    | zero => rfl
    | succ k =>
      rw [numbered, List.take_succ_cons, List.flatMap_cons, ih (id + 1) (Nat.le_of_succ_le_succ hk)]
      simp [MsgView.transmission, hch, List.iterate]

theorem pieceFrames_eq_numbered (hch : ch.isReliable = true) (m : FragmentedMessage)
    (is : List UInt16) :
    pieceFrames ch m id is =
      numbered ch ControlType.fragment.code id (is.map fun i => (m.piece i).encode) := by
  induction is generalizing id with
  | nil => rfl
  | cons i is ih => simp [pieceFrames, pieceFrame, numbered, hch, ih]

end Numbered

/-- What a message on a reliable channel is posted as, without the message ids. -/
def sendBodies (channel : Channel) (type : UInt8) (payload : Bytes) (s : Session) : List Bytes :=
  if channel.maxInlinePayloadSize < payload.length then
    let m := s.fragmentedMessage channel type payload
    (Party.pieceIndices m.fragmentCount).map fun i => (m.piece i).encode
  else if channel = .reliableOrdered then [be64 s.nextOrderedSequence ++ payload]
  else [payload]

/-- The type its frames have. -/
def frameType (channel : Channel) (type : UInt8) (payload : Bytes) : UInt8 :=
  if channel.maxInlinePayloadSize < payload.length then ControlType.fragment.code else type

theorem sendFrames_eq_numbered {ch : Channel} (hch : ch.isReliable = true) (t : UInt8)
    (payload : Bytes) (s : Session) :
    sendFrames ch t payload s = numbered ch (frameType ch t payload)
      (s.reliableFor ch).nextMessageId (sendBodies ch t payload s) := by
  unfold sendFrames frameType sendBodies
  split_ifs with hlong hord
  · exact pieceFrames_eq_numbered _ hch _ _
  · subst hord
    rfl
  · obtain rfl : ch = .reliable := by
      cases ch <;> simp_all [Channel.isReliable]
    rfl

namespace Session

variable (ch : Channel) (s : Session)

@[simp] theorem drawFragmentId_reliableFor :
    s.drawFragmentId.reliableFor ch = s.reliableFor ch := by
  simp only [drawFragmentId, log, reliableFor]

@[simp] theorem drawOrdered_reliableFor : s.drawOrdered.reliableFor ch = s.reliableFor ch := by
  simp only [drawOrdered, log, reliableFor]

@[simp] theorem drawSequenced_reliableFor :
    s.drawSequenced.reliableFor ch = s.reliableFor ch := by
  simp only [drawSequenced, log, reliableFor]

end Session

namespace Party

variable (C : Crypto)

/-- Post messages one after the other; stop at the first error. -/
def sendAll (channel : Channel) (type : UInt8) (priority : SendPriority) (lifetimeMs now : UInt64) :
    List Bytes → Party → Result Unit × Party
  | [], p => (.ok (), p)
  | body :: bodies, p =>
    match p.sendReliableMessage C channel type body priority lifetimeMs now with
    | (.error e, p) => (.error e, p)
    | (.ok (), p) => sendAll channel type priority lifetimeMs now bodies p

/-- The transmissions of a send: a frame of its list for each packet it has queued. -/
def transmitted (options : SendOptions) (type : UInt8) (payload : Bytes) (now : UInt64)
    (p : Party) : List Transmission :=
  ((sendFrames options.channel type payload p.session).take
    ((p.send C options type payload now).2.net.pending.length - p.net.pending.length)).flatMap
      (MsgView.transmission now)

/-- The transmissions of a retransmission pass over the queue of one channel. -/
def resent (channel : Channel) (now : UInt64) (p : Party) : List Transmission :=
  ((p.session.reliableFor channel).resendDue now
    (ReliableSession.noting (fun messageId => ⟨channel, messageId, now⟩) (resendOne C channel))
    (p, [])).2.2.2

/-- The transmissions of `pump_reliable`. -/
def pumped (now : UInt64) (p : Party) : List Transmission :=
  if p.session.state ≠ .established then []
  else
    let p := p.mapSession (expirePending now)
    match p.resendChannel C .reliable now with
    | (rc, q) =>
      if rc ≠ .ok () ∧ !isBackpressure rc then p.resent C .reliable now
      else p.resent C .reliable now ++ q.resent C .reliableOrdered now

variable {C} {p p' : Party} {ch : Channel} {n : ℕ} {rs : ReliableSession}

/-! ### A reliable send -/

/-- The reliable session of one channel is replaced and so many packets are queued. -/
structure Replaces (ch : Channel) (rs : ReliableSession) (packets : ℕ) (p p' : Party) : Prop where
  own : p'.session.reliableFor ch = rs
  other : ∀ ch', ¬(ch' = .reliableOrdered ↔ ch = .reliableOrdered) →
    p'.session.reliableFor ch' = p.session.reliableFor ch'
  packets : p'.net.pending.length = p.net.pending.length + packets

theorem Replaces.of_eq (hrel : ∀ ch', p'.session.reliableFor ch' = p.session.reliableFor ch')
    (hnet : p'.net = p.net) : Replaces ch (p.session.reliableFor ch) 0 p p' :=
  ⟨hrel ch, fun ch' _ => hrel ch', by rw [hnet, Nat.add_zero]⟩

theorem Replaces.trans {rs' : ReliableSession} {m : ℕ} {p'' : Party} (h : Replaces ch rs m p p')
    (h' : Replaces ch rs' n p' p'') : Replaces ch rs' (m + n) p p'' :=
  ⟨h'.own, fun ch' hch => (h'.other ch' hch).trans (h.other ch' hch), by
    rw [h'.packets, h.packets, Nat.add_assoc]⟩

theorem Replaces.update (h : Replaces ch rs n p p') (f : ReliableSession → ReliableSession) :
    Replaces ch (f rs) n p
      (p'.mapSession fun s => s.setReliable ch (f (s.reliableFor ch))) := by
  refine ⟨?_, fun ch' hch => ?_, h.packets⟩
  · rw [mapSession_session, Session.reliableFor_setReliable_self, h.own]
  · rw [mapSession_session, Session.reliableFor_setReliable, if_neg hch]
    exact h.other ch' hch

theorem Replaces.log (h : Replaces ch rs n p p') (e : Event) : Replaces ch rs n p (p'.log e) :=
  ⟨h.own, h.other, h.packets⟩

theorem enqueued_replaces (ch : Channel) (rs : ReliableSession) (p : Party) :
    Replaces ch rs 0 p (p.enqueued ch rs) :=
  ((Replaces.of_eq (fun _ => rfl) rfl).update fun _ => rs).log _

theorem Queued.replaces {kind : PacketKind} {payload : Bytes} {priority : SendPriority}
    {rc : Result Unit} (h : Queued C p kind payload priority rc p') (ch : Channel) :
    Replaces ch (p.session.reliableFor ch) (if rc = .ok () then 1 else 0) p p' := by
  refine ⟨h.reliableFor_eq ch, fun ch' _ => h.reliableFor_eq ch', ?_⟩
  cases rc with
  | ok u => exact h.took.2.2
  | error e =>
    have hqs := h.queues_of_error
    simp only [queues, Prod.mk.injEq] at hqs
    rw [if_neg (by simp), hqs.1, Nat.add_zero]

/-- A reliable message is turned away, or it is posted and transmitted if that succeeds. -/
theorem sendReliableMessage_cases (ch : Channel) (t : UInt8) (d : Bytes) (prio : SendPriority)
    (life now : UInt64) (p : Party) :
    (∃ e, p.sendReliableMessage C ch t d prio life now = (.error e, p)) ∨
    ∃ rc p' queued, p.sendReliableMessage C ch t d prio life now = (rc, p') ∧
      Replaces ch ((p.session.reliableFor ch).post t d prio life now queued)
        ((p.session.reliableFor ch).posted t d prio life now queued).length p p' ∧
      ((p.session.reliableFor ch).posted t d prio life now queued =
        if rc = .ok () then [(p.session.reliableFor ch).nextMessageId] else []) ∧
      (rc = .ok () → (p'.session.reliableFor ch).nextMessageId =
        (p.session.reliableFor ch).nextMessageId + 1) := by
  unfold sendReliableMessage
  split_ifs with hlen
  · exact Or.inl ⟨_, rfl⟩
  unfold ReliableSession.post ReliableSession.posted
  rcases (p.session.reliableFor ch).enqueue_eq t d prio life now with
    ⟨msg, he, -⟩ | ⟨msg, he, -⟩ | ⟨he, -⟩
  · left
    refine ⟨⟨.queueFull, msg⟩, ?_⟩
    rw [he]
    simp only [fail, if_true]
    rw [mapSession_setReliable_self]
  · right
    rw [he]
    simp only [fail, reduceCtorEq, if_false]
    exact ⟨_, _, false, rfl, enqueued_replaces ch _ p, rfl, fun h => by cases h⟩
  · right
    rw [he]
    dsimp only
    generalize hrs : { p.session.reliableFor ch with
      nextMessageId := (p.session.reliableFor ch).nextMessageId + 1
      pending := _
      pendingBytes := _ : ReliableSession } = rs
    have hnext : rs.nextMessageId = (p.session.reliableFor ch).nextMessageId + 1 := by rw [← hrs]
    rw [← enqueued]
    have hq := queueMessagePacket_queued C ch t
      ((p.session.reliableFor ch).queued t d prio life now).encodedPayload prio (p.enqueued ch rs)
    cases hr : (p.enqueued ch rs).queueMessagePacket C ch t
        ((p.session.reliableFor ch).queued t d prio life now).encodedPayload prio with
    | mk rc q =>
      rw [hr] at hq
      have hrep := (enqueued_replaces ch rs p).trans (hq.replaces ch)
      rw [enqueued_reliableFor] at hrep
      cases rc with
      | error e => exact ⟨_, _, false, rfl, hrep.update fun rs => (rs.acknowledge _ now).2, rfl,
          fun h => by cases h⟩
      | ok u =>
        have hset := hrep.update fun rs => (rs.noteSent
          ((p.session.reliableFor ch).queued t d prio life now).messageId now).2
        refine ⟨_, _, true, rfl, hset, rfl, fun _ => ?_⟩
        rw [hset.own, (ReliableSession.sameNumbers_noteSent ..).nextMessageId, hnext]

section Rule

variable {J : List ℕ → List UInt64 → ReliableSession → Prop} {prio : SendPriority}
  {life now : UInt64}

/-- What posting keeps, with the sizes that are still to come and the ids posted so far, holds
in the end. -/
theorem sendAll_induction {t : UInt8}
    (hpost : ∀ d sizes ids rs queued, J ((8 + d.length) :: sizes) ids rs →
      J sizes (ids ++ rs.posted t d prio life now queued) (rs.post t d prio life now queued))
    (hstop : ∀ sizes ids rs, J sizes ids rs → J [] ids rs) (bodies : List Bytes)
    (ids : List UInt64) (p : Party)
    (hJ : J (bodies.map fun body => 8 + body.length) ids (p.session.reliableFor ch)) :
    ∃ k ≤ bodies.length, ∃ rs,
      Replaces ch rs k p (p.sendAll C ch t prio life now bodies).2 ∧
      J [] (ids ++ List.iterate (· + 1) (p.session.reliableFor ch).nextMessageId k) rs := by
  induction bodies generalizing ids p with
  | nil => exact ⟨0, le_rfl, _, .of_eq (fun _ => rfl) rfl, by simpa using hJ⟩
  | cons body bodies ih =>
    unfold sendAll
    rcases sendReliableMessage_cases (C := C) ch t body prio life now p with
      ⟨e, hs⟩ | ⟨rc, q, queued, hs, hrep, hposted, hnext⟩
    · rw [hs]
      exact ⟨0, Nat.zero_le _, _, .of_eq (fun _ => rfl) rfl, by simpa using hstop _ _ _ hJ⟩
    · have hJ' := hpost _ _ _ _ queued hJ
      rw [hs]
      rw [hposted] at hrep hJ'
      cases rc with
      | error e => exact ⟨0, Nat.zero_le _, _, hrep, by simpa using hstop _ _ _ hJ'⟩
      | ok u =>
        rw [← hrep.own] at hJ'
        obtain ⟨k, hk, rs, hrep', hend⟩ := ih _ q hJ'
        refine ⟨k + 1, Nat.succ_le_succ hk, rs, ?_, ?_⟩
        · rw [Nat.add_comm]
          exact hrep.trans hrep'
        · rw [hnext rfl] at hend
          simpa [List.iterate] using hend

end Rule

theorem drawDeliverySequence_reliableFor (ch ch' : Channel) (p : Party) :
    ((p.mapSession Session.drawFragmentId).drawDeliverySequence ch).2.session.reliableFor ch' =
        p.session.reliableFor ch' ∧
      ((p.mapSession Session.drawFragmentId).drawDeliverySequence ch).2.net = p.net := by
  unfold drawDeliverySequence
  split_ifs <;> simp

theorem sendPiece_reliable {o : SendOptions} (hrel : o.channel.isReliable = true)
    {m : FragmentedMessage} (hm : m.Sendable) {i : UInt16} (hi : i < m.fragmentCount)
    (now : UInt64) (p : Party) :
    p.sendPiece C o now m i = p.sendReliableMessage C o.channel ControlType.fragment.code
      (m.piece i).encode o.priority o.lifetimeMs now := by
  have hw := hm.piece_wellFormed hi
  have hwrite := writeFragmentPayload_eq hw ⟨NetConfig.maxMessageBytes, []⟩
  rw [ByteWriter.writeBytes_fresh, if_pos (by
    have := hw.data_le
    simp
    omega)] at hwrite
  unfold sendPiece
  dsimp only
  rw [piece_data_eq hm.short hi, ← FragmentedMessage.piece, hwrite]
  simp only [hrel, if_true]

theorem sendPieces_reliable {o : SendOptions} (hrel : o.channel.isReliable = true)
    {m : FragmentedMessage} (hm : m.Sendable) {is : List UInt16}
    (his : ∀ i ∈ is, i < m.fragmentCount) (now : UInt64) (p : Party) :
    p.sendPieces C o now m is = p.sendAll C o.channel ControlType.fragment.code o.priority
      o.lifetimeMs now (is.map fun i => (m.piece i).encode) := by
  induction is generalizing p with
  | nil => rfl
  | cons i is ih =>
    rw [List.forall_mem_cons] at his
    unfold sendPieces
    rw [List.map_cons, sendAll, sendPiece_reliable hrel hm his.1]
    cases p.sendReliableMessage C o.channel ControlType.fragment.code (m.piece i).encode
        o.priority o.lifetimeMs now with
    | mk rc q =>
      cases rc with
      | error e => rfl
      | ok u => exact ih his.2 q

theorem sendAll_singleton (t : UInt8) (prio : SendPriority) (life now : UInt64) (body : Bytes)
    (p : Party) : (p.sendAll C ch t prio life now [body]).2 =
      (p.sendReliableMessage C ch t body prio life now).2 := by
  unfold sendAll
  cases p.sendReliableMessage C ch t body prio life now with
  | mk rc q => cases rc <;> rfl

variable {o : SendOptions} {t : UInt8} {payload : Bytes} {now : UInt64}

/-- A reliable send draws its numbers and posts its bodies, or gives up before the first. -/
structure PostsBodies (C : Crypto) (o : SendOptions) (t : UInt8) (payload : Bytes) (now : UInt64)
    (p q p' : Party) : Prop where
  reliable : ∀ ch, q.session.reliableFor ch = p.session.reliableFor ch
  net : q.net = p.net
  result : p' = q ∨ p' = (q.sendAll C o.channel (frameType o.channel t payload) o.priority
    o.lifetimeMs now (sendBodies o.channel t payload p.session)).2

theorem PostsBodies.none : PostsBodies C o t payload now p p p :=
  ⟨fun _ => rfl, rfl, Or.inl rfl⟩

theorem sendFragmented_posts (hrel : o.channel.isReliable = true)
    (hlen : payload.length ≤ 0xFFFF) (hfrag : o.channel.maxInlinePayloadSize < payload.length) :
    ∃ q, PostsBodies C o t payload now p q (p.sendFragmented C o t payload now).2 := by
  unfold sendFragmented
  dsimp only
  split_ifs
  · exact ⟨p, .none⟩
  · exact ⟨p, .none⟩
  · exact ⟨p, .none⟩
  · exact ⟨p, .none⟩
  have hseq := (drawDeliverySequence_sending (C := C) o.priority o.channel p).2.1
  have hsame := fun ch => drawDeliverySequence_reliableFor o.channel ch p
  rw [hseq]
  generalize ((p.mapSession Session.drawFragmentId).drawDeliverySequence o.channel).2 = q at hsame ⊢
  change ∃ q', PostsBodies C o t payload now p q' (q.sendPieces C o now
    (p.session.fragmentedMessage o.channel t payload)
    (pieceIndices (p.session.fragmentedMessage o.channel t payload).fragmentCount)).2
  refine ⟨q, fun ch => (hsame ch).1, (hsame .reliable).2, ?_⟩
  by_cases hid : (p.session.fragmentedMessage o.channel t payload).messageId = 0
  · -- Without a message number the loop fails at the first piece.
    left
    cases pieceIndices (p.session.fragmentedMessage o.channel t payload).fragmentCount with
    | nil => rfl
    | cons i is =>
      obtain ⟨e, he⟩ := sendPiece_of_messageId_eq_zero (C := C) (p := q) o now hid i
      rw [sendPieces, he]
  · right
    have hm : (p.session.fragmentedMessage o.channel t payload).Sendable := by
      refine ⟨hid, ?_, Nat.zero_lt_of_lt hfrag, Nat.lt_succ_of_le hlen⟩
      intro hctl
      have hch : o.channel = .control := hctl
      rw [hch] at hrel
      cases hrel
    rw [sendPieces_reliable hrel hm (fun i hi => lt_of_mem_pieceIndices hi), frameType,
      sendBodies, if_pos hfrag, if_pos hfrag]

/-- The whole send path of a reliable channel. -/
theorem send_posts (hrel : o.channel.isReliable = true) (t : UInt8) (payload : Bytes)
    (now : UInt64) (p : Party) :
    ∃ q, PostsBodies C o t payload now p q (p.send C o t payload now).2 := by
  unfold send
  split_ifs with hest happ hlen hfrag hr hord hseq
  · exact ⟨p, .none⟩
  · exact ⟨p, .none⟩
  · exact ⟨p, .none⟩
  · exact sendFragmented_posts hrel (not_lt.mp hlen) hfrag
  · refine ⟨p, fun _ => rfl, rfl, Or.inr ?_⟩
    rw [frameType, sendBodies, if_neg hfrag, if_neg hfrag, if_neg (by rw [hr]; decide),
      sendAll_singleton, hr]
  · refine ⟨p.mapSession Session.drawOrdered, fun ch => p.session.drawOrdered_reliableFor ch,
      mapSession_net _ p, ?_⟩
    dsimp only
    rw [writeOrderedPayload, writeEnvelope_eq]
    split_ifs with h0 hbig
    · exact Or.inl rfl
    · exact Or.inl rfl
    · right
      rw [ByteWriter.writeBytes_fresh, if_pos (by simp at hbig ⊢; omega), frameType, sendBodies,
        if_neg hfrag, if_neg hfrag, if_pos hord, sendAll_singleton, hord]
  · rw [hseq] at hrel
    cases hrel
  · cases hc : o.channel <;> simp_all [Channel.isReliable]

/-- What posting keeps is kept by a reliable send, which lists the ids it has posted. -/
theorem send_induction {J : List ℕ → List UInt64 → ReliableSession → Prop}
    (hrel : o.channel.isReliable = true) (t : UInt8) (payload : Bytes) (now : UInt64) (p : Party)
    (hpost : ∀ t d sizes ids rs queued, J ((8 + d.length) :: sizes) ids rs →
      J sizes (ids ++ rs.posted t d o.priority o.lifetimeMs now queued)
        (rs.post t d o.priority o.lifetimeMs now queued))
    (hstop : ∀ sizes ids rs, J sizes ids rs → J [] ids rs)
    (hJ : J ((sendFrames o.channel t payload p.session).map fun msg => msg.data.length) []
      (p.session.reliableFor o.channel)) :
    ∃ ids rs n, Replaces o.channel rs n p (p.send C o t payload now).2 ∧ J [] ids rs ∧
      p.transmitted C o t payload now = ids.map fun id => ⟨o.channel, id, now⟩ := by
  obtain ⟨q, hsame, hnet, hresult⟩ := send_posts (C := C) hrel t payload now p
  have hfirst : Replaces o.channel (p.session.reliableFor o.channel) 0 p q := .of_eq hsame hnet
  unfold transmitted
  rcases hresult with heq | heq
  · rw [heq, hnet]
    exact ⟨[], _, 0, hfirst, hstop _ _ _ hJ, by simp⟩
  · rw [sendFrames_eq_numbered hrel, map_length_numbered, ← hsame] at hJ
    obtain ⟨k, hk, rs, hrep, hend⟩ := sendAll_induction (C := C) (hpost _) hstop _ [] q hJ
    have hall := hfirst.trans hrep
    rw [← heq] at hall
    refine ⟨_, rs, _, hall, hend, ?_⟩
    rw [hall.packets, sendFrames_eq_numbered hrel, hsame, Nat.zero_add, Nat.add_sub_cancel_left]
    exact flatMap_take_numbered _ _ hrel now hk

/-! ### Other sends -/

theorem sendPieces_unreliable (hrel : o.channel.isReliable = false) (m : FragmentedMessage)
    (is : List UInt16) (p : Party) (ch : Channel) :
    (p.sendPieces C o now m is).2.session.reliableFor ch = p.session.reliableFor ch := by
  induction is generalizing p with
  | nil => rfl
  | cons i is ih =>
    have hpiece : (p.sendPiece C o now m i).2.session.reliableFor ch =
        p.session.reliableFor ch := by
      unfold sendPiece
      dsimp only
      split
      · rfl
      · simp only [hrel, Bool.false_eq_true, if_false]
        exact (queueInternalMessage_queued ..).reliableFor_eq ch
    unfold sendPieces
    cases hr : p.sendPiece C o now m i with
    | mk rc q =>
      rw [hr] at hpiece
      cases rc with
      | error e => exact hpiece
      | ok u => exact (ih q).trans hpiece

/-- A send on an unreliable channel leaves the reliable sessions alone. -/
theorem send_unreliable (hrel : o.channel.isReliable = false) (t : UInt8) (payload : Bytes)
    (now : UInt64) (p : Party) (ch : Channel) :
    (p.send C o t payload now).2.session.reliableFor ch = p.session.reliableFor ch := by
  unfold send
  split_ifs with hest happ hlen hfrag hr hord hseq
  · rfl
  · rfl
  · rfl
  · unfold sendFragmented
    dsimp only
    split_ifs
    · rfl
    · rfl
    · rfl
    · exact (sendPieces_unreliable hrel _ _ _ ch).trans
        (drawDeliverySequence_reliableFor o.channel ch p).1
  · rw [hr] at hrel
    cases hrel
  · rw [hord] at hrel
    cases hrel
  · dsimp only
    have hdraw : (p.mapSession Session.drawSequenced).session.reliableFor ch =
        p.session.reliableFor ch := p.session.drawSequenced_reliableFor ch
    cases writeSequencedPayload ⟨NetConfig.maxMessageBytes, []⟩ p.session.nextSequencedSequence
        payload with
    | error e => exact hdraw
    | ok w => exact ((queueMessagePacket_queued ..).reliableFor_eq ch).trans hdraw
  · exact (queueMessagePacket_queued ..).reliableFor_eq ch

theorem transmitted_unreliable (hrel : o.channel.isReliable = false) (t : UInt8) (payload : Bytes)
    (now : UInt64) (p : Party) : p.transmitted C o t payload now = [] := by
  have hpieces : ∀ m id is, ∀ msg ∈ pieceFrames o.channel m id is, msg.transmission now = [] := by
    intro m id is
    induction is generalizing id with
    | nil => exact fun msg h => absurd h List.not_mem_nil
    | cons i is ih =>
      rw [pieceFrames, pieceFrame]
      simp only [hrel, Bool.false_eq_true, if_false, List.forall_mem_cons]
      exact ⟨rfl, ih (id + 1)⟩
  have hframes : ∀ msg ∈ sendFrames o.channel t payload p.session, msg.transmission now = [] := by
    unfold sendFrames
    split_ifs
    · exact hpieces _ _ _
    · intro msg hmsg
      obtain rfl := List.mem_singleton.mp hmsg
      cases hc : o.channel <;> simp_all [inlineFrame, MsgView.transmission, Channel.isReliable]
  exact List.flatMap_eq_nil_iff.mpr fun msg hmsg => hframes msg (List.mem_of_mem_take hmsg)

/-! ### Retransmission passes -/

theorem resendOne_replaces (ch ch' : Channel) (m : PendingReliableMessage) (p : Party) :
    ∃ n, Replaces ch' (p.session.reliableFor ch') n p (p.resendOne C ch m).2 := by
  have hq := (queueMessagePacket_queued C ch m.userType m.encodedPayload m.priority p).replaces ch'
  unfold resendOne
  cases hr : p.queueMessagePacket C ch m.userType m.encodedPayload m.priority with
  | mk rc q =>
    rw [hr] at hq
    cases rc <;> exact ⟨_, hq⟩

theorem resendChannel_replaces (ch : Channel) (now : UInt64) (p : Party) :
    ∃ n, Replaces ch ((p.session.reliableFor ch).resendDue now (resendOne C ch) p).2.1 n p
      (p.resendChannel C ch now).2 := by
  obtain ⟨-, -, n, hpass⟩ := (p.session.reliableFor ch).resendDue_spec now (resendOne C ch)
    (fun q => ∃ n, Replaces ch (p.session.reliableFor ch) n p q)
    (fun m q _ ⟨n, hq⟩ => by
      obtain ⟨k, hk⟩ := resendOne_replaces (C := C) ch ch m q
      rw [hq.own] at hk
      exact ⟨n + k, hq.trans hk⟩) p ⟨0, .of_eq (fun _ => rfl) rfl⟩
  unfold resendChannel
  exact ⟨n, hpass.update fun _ => _⟩

/-- What expiry and both passes keep, with the channels still to come, is kept by
`pump_reliable`. -/
theorem pumpReliable_induction {J : List Channel → List Transmission → Party → Prop}
    (now : UInt64)
    (hexpire : J [.reliable, .reliableOrdered] [] (p.mapSession (expirePending now)))
    (hpass : ∀ ch chs sent q, ch.isReliable = true → J (ch :: chs) sent q →
      J chs (sent ++ q.resent C ch now) (q.resendChannel C ch now).2)
    (hbudget : ∀ sent q (f : SendBudget → SendBudget), J [] sent q →
      J [] sent (q.mapSession fun s => { s with budget := f s.budget }))
    (hstop : ∀ chs sent q, J chs sent q → J [] sent q) (hidle : J [] [] p) :
    J [] (p.pumped C now) (p.pumpReliable C now).2 := by
  unfold pumped pumpReliable
  split_ifs with hest
  · exact hidle
  have h1 := hpass .reliable _ _ _ rfl hexpire
  rw [List.nil_append] at h1
  dsimp only
  cases hr : (p.mapSession (expirePending now)).resendChannel C .reliable now with
  | mk rc q =>
    rw [hr] at h1
    have h2 := hpass .reliableOrdered _ _ _ rfl h1
    dsimp only
    split_ifs
    · exact hstop _ _ _ h1
    · exact h2
    · exact hbudget _ _ _ h2
    · exact h2

theorem reliableFor_expirePending (ch : Channel) (now : UInt64) (s : Session) :
    (expirePending now s).reliableFor ch = ((s.reliableFor ch).expireOld now).2 := by
  unfold expirePending Session.reliableFor
  split_ifs <;> rfl

end Party

end SecureCnet
