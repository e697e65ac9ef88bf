import SecureCnet.Session.Sealed

/-!
# Which sends are accepted

A send passes the retransmission queue, the cipher and the packet queue, and each
can refuse. Whether all frames of a message get through is decided by the state
before the call: the room in both queues, the byte budget and the next numbers.
A fragmented message that does not fit as a whole leaves its first pieces behind.
-/

namespace SecureCnet

namespace ReliableSession

/-- The message `enqueue` would put into the queue. -/
def message (userType : UInt8) (data : Bytes) (priority : SendPriority) (lifetimeMs nowMs : UInt64)
    (rs : ReliableSession) : PendingReliableMessage where
  messageId := rs.nextMessageId
  userType
  encodedPayload := be64 rs.nextMessageId ++ data
  priority
  lifetimeMs
  enqueuedMs := nowMs
  rtoMs := rs.rtoMs

/-- The queue has room for the `k`-th of several messages once it has taken those before it. -/
def AdmitsAt (sizes : List ℕ) (k : ℕ) (rs : ReliableSession) : Prop :=
  rs.pending.length + k < rs.cfg.maxPendingMessages.toNat ∧
    rs.pendingBytes + UInt32.ofNat ((sizes.take (k + 1)).map (8 + ·)).sum ≤
      rs.cfg.maxPendingBytes ∧
    rs.nextMessageId + UInt64.ofNat k ≠ 0

instance (sizes : List ℕ) (k : ℕ) (rs : ReliableSession) : Decidable (rs.AdmitsAt sizes k) :=
  inferInstanceAs (Decidable (_ ∧ _))

/-- The session after `enqueue` has taken a message. -/
def taking (m : PendingReliableMessage) (len : ℕ) (rs : ReliableSession) : ReliableSession :=
  { rs with
    nextMessageId := rs.nextMessageId + 1
    pending := insertPending m rs.pending
    pendingBytes := rs.pendingBytes + UInt32.ofNat (8 + len) }

variable {rs : ReliableSession}

theorem admitsAt_zero {len : ℕ} {sizes : List ℕ} :
    rs.AdmitsAt (len :: sizes) 0 ↔ rs.pending.length < rs.cfg.maxPendingMessages.toNat ∧
      rs.pendingBytes + UInt32.ofNat (8 + len) ≤ rs.cfg.maxPendingBytes ∧
      rs.nextMessageId ≠ 0 := by
  simp [AdmitsAt]

theorem enqueue_of_admits {t : UInt8} {d : Bytes}
    (hlen : d.length ≤ NetConfig.maxReliableMessageBytes) (h : rs.AdmitsAt [d.length] 0)
    (prio : SendPriority) (life now : UInt64) :
    rs.enqueue t d prio life now = (.ok (rs.message t d prio life now),
      rs.taking (rs.message t d prio life now) d.length) := by
  obtain ⟨hroom, hbytes, hid⟩ := admitsAt_zero.mp h
  exact enqueue_of_room hlen hroom hbytes hid prio life now

theorem enqueue_of_not_admits {d : Bytes} (h : ¬rs.AdmitsAt [d.length] 0) (t : UInt8)
    (prio : SendPriority) (life now : UInt64) :
    ∃ e rs', rs.enqueue t d prio life now = (.error e, rs') ∧ rs'.pending = rs.pending := by
  rcases rs.enqueue_eq t d prio life now with
    ⟨msg, he, -⟩ | ⟨msg, he, -⟩ | ⟨-, hid, -, hroom, hbytes⟩
  · exact ⟨_, rs, he, rfl⟩
  · exact ⟨_, _, he, rfl⟩
  · exact absurd (admitsAt_zero.mpr ⟨hroom, hbytes, hid⟩) h

/-- Having taken one message, the queue counts on from there. -/
theorem admitsAt_succ {rs' : ReliableSession} {len : ℕ} (hcfg : rs'.cfg = rs.cfg)
    (hpend : rs'.pending.length = rs.pending.length + 1)
    (hbytes : rs'.pendingBytes = rs.pendingBytes + UInt32.ofNat (8 + len))
    (hnext : rs'.nextMessageId = rs.nextMessageId + 1) (sizes : List ℕ) (k : ℕ) :
    rs'.AdmitsAt sizes k ↔ rs.AdmitsAt (len :: sizes) (k + 1) := by
  have hid : rs.nextMessageId + 1 + UInt64.ofNat k = rs.nextMessageId + UInt64.ofNat (k + 1) := by
    rw [UInt64.ofNat_add, UInt64.add_assoc, UInt64.add_comm 1]
    rfl
  have hsum : rs.pendingBytes + UInt32.ofNat (8 + len) +
        UInt32.ofNat ((sizes.take (k + 1)).map (8 + ·)).sum =
      rs.pendingBytes + UInt32.ofNat (((len :: sizes).take (k + 1 + 1)).map (8 + ·)).sum := by
    rw [List.take_succ_cons, List.map_cons, List.sum_cons, UInt32.ofNat_add (8 + len),
      UInt32.add_assoc]
  unfold AdmitsAt
  rw [hcfg, hpend, hbytes, hnext, hid, hsum, Nat.add_assoc, Nat.add_comm 1 k]

theorem noteSent_pendingBytes (id now : UInt64) (rs : ReliableSession) :
    (rs.noteSent id now).2.pendingBytes = rs.pendingBytes := by
  unfold noteSent
  cases rs.pending.find? fun m => m.messageId = id with
  | none => rfl
  | some m =>
    dsimp only
    split_ifs <;> rfl

theorem length_insertPending (m : PendingReliableMessage) (ms : List PendingReliableMessage) :
    (insertPending m ms).length = ms.length + 1 :=
  List.orderedInsert_length _ _ _

end ReliableSession

variable {C : Crypto}

/-- With an ideal cipher every payload that fits can be sealed. -/
theorem buildPacket_of_le (hC : C.IdealAead) {payload : Bytes}
    (hlen : payload.length ≤ NetConfig.maxEncryptedPlaintextBytes) (kind : PacketKind)
    (connId seq : UInt64) (key : Block 32) :
    ∃ bytes, buildPacket C kind true payload connId seq key = .ok bytes := by
  obtain ⟨c, henc, hclen, -⟩ := hC.encrypt key (cryptoMakePacketNonce connId seq)
    (packetHeader kind true connId seq (payload.length + NetConfig.aeadTagBytes)).encode payload
  have hcap : ¬NetConfig.maxPayloadBytes < payload.length + NetConfig.aeadTagBytes := by
    simp at hlen ⊢
    omega
  have hvalid := validatePacketHeader_packetHeader kind true connId seq (not_lt.mp hcap)
  refine ⟨(packetHeader kind true connId seq (payload.length + NetConfig.aeadTagBytes)).encode ++ c,
    ?_⟩
  have hseal : cryptoAeadEncrypt C key (cryptoMakePacketNonce connId seq)
      (packetHeader kind true connId seq (payload.length + NetConfig.aeadTagBytes)).encode payload
      NetConfig.maxPayloadBytes = .ok c := by
    unfold cryptoAeadEncrypt
    rw [if_neg hcap, henc]
  unfold buildPacket
  simp only [if_true]
  rw [writePacketHeader_eq, ByteWriter.writeBytes_fresh, if_pos (by simp), Result.ok_bind]
  change (cryptoAeadEncrypt C key (cryptoMakePacketNonce connId seq) (packetHeader kind true connId
    seq (payload.length + NetConfig.aeadTagBytes)).encode payload NetConfig.maxPayloadBytes >>=
    fun sealedPayload => packPacket _ _ _) = _
  rw [hseal]
  refine packPacket_of_valid hvalid ?_ ?_ ?_
  · rw [hclen]
    exact not_lt.mp hcap
  · rw [hclen]
  · simp [hclen]
    simp at hlen
    omega

namespace Party

/-- The session can encrypt: it has keys, and a client knows its connection id. -/
def canSeal (p : Party) : Bool :=
  match p.side with
  | .client _ => !p.session.keys.empty && p.session.connId ≠ 0
  | .server _ => !p.session.keys.empty

/-- Both queues have room for the `k`-th of several frames once they have taken those before. -/
def TakesAt (ch : Channel) (sizes : List ℕ) (k : ℕ) (p : Party) : Prop :=
  p.canSeal = true ∧ p.net.pending.length + k < p.side.maxPendingPackets.toNat ∧
    (ch.isReliable = true → (p.session.reliableFor ch).AdmitsAt sizes k)

/-- The session takes frames of the given sizes one after the other. -/
def Takes (ch : Channel) (sizes : List ℕ) (p : Party) : Prop :=
  ∀ k < sizes.length, p.TakesAt ch sizes k

instance (ch : Channel) (sizes : List ℕ) (k : ℕ) (p : Party) : Decidable (p.TakesAt ch sizes k) :=
  inferInstanceAs (Decidable (_ ∧ _))

instance (ch : Channel) (sizes : List ℕ) (p : Party) : Decidable (p.Takes ch sizes) :=
  inferInstanceAs (Decidable (∀ k < sizes.length, p.TakesAt ch sizes k))

variable {ch : Channel} {len : ℕ} {payload : Bytes}

theorem takes_singleton {p : Party} : p.Takes ch [len] ↔ p.TakesAt ch [len] 0 := by
  simp [Takes]

variable {p q : Party}

/-- A packet that fits is queued exactly when the session can encrypt and the queue has room. -/
theorem queueSecure_ok_iff (hC : C.IdealAead)
    (hlen : payload.length ≤ NetConfig.maxEncryptedPlaintextBytes) (kind : PacketKind)
    (priority : SendPriority) :
    (p.queueSecure C kind payload priority).1 = .ok () ↔
      p.canSeal = true ∧ p.net.pending.length < p.side.maxPendingPackets.toNat := by
  have hseal : ∀ maxPending dest owner, (sealAndEnqueue C maxPending dest owner kind true payload
      p.session.connId p.session.sendSeq p.session.keys.tx priority p.net).1 = .ok () ↔
        p.net.pending.length < maxPending.toNat := by
    intro maxPending dest owner
    obtain ⟨bytes, hb⟩ := buildPacket_of_le hC hlen kind p.session.connId p.session.sendSeq
      p.session.keys.tx
    rw [sealAndEnqueue, hb]
    dsimp only
    unfold enqueuePendingPacket
    split_ifs with hfull
    · simp [not_lt.mpr hfull]
    · simpa using hfull
  unfold queueSecure canSeal Side.maxPendingPackets
  cases hs : p.side with
  | client config =>
    dsimp only
    unfold queuePacketClient
    by_cases hkeys : (p.session.keys.empty || decide (p.session.connId = 0)) = true
    · have hno : (!p.session.keys.empty && decide (p.session.connId ≠ 0)) = false := by
        cases he : p.session.keys.empty <;> simp_all
      simp only [not_lt.mpr hlen, hkeys, hno, decide_false, Bool.and_false, Bool.false_eq_true,
        if_false, Bool.not_true, Bool.false_and, Bool.and_self, if_true, false_and, iff_false]
      exact Result.fail_ne_ok _ _ _
    · have hyes : (!p.session.keys.empty && decide (p.session.connId ≠ 0)) = true := by
        simpa using hkeys
      simp only [not_lt.mpr hlen, hkeys, hyes, decide_false, Bool.and_false, Bool.false_eq_true,
        if_false, Bool.not_true, Bool.false_and, if_true, true_and]
      exact hseal _ _ _
  | server config =>
    dsimp only
    unfold queuePacketServer
    rw [if_neg (not_lt.mpr hlen)]
    cases hkeys : p.session.keys.empty with
    | true => simp
    | false =>
      simp only [Bool.false_eq_true, if_false, Bool.not_false, true_and]
      exact hseal _ _ _

theorem queueInternalMessage_ok_iff (hC : C.IdealAead) {d : Bytes}
    (hlen : d.length ≤ NetConfig.maxMessageBytes) (ch : Channel) (t : UInt8)
    (priority : SendPriority) :
    (p.queueInternalMessage C ch t d priority).1 = .ok () ↔
      p.canSeal = true ∧ p.net.pending.length < p.side.maxPendingPackets.toNat := by
  have hmax : (MsgView.encode ⟨ch, t, d⟩).length ≤ NetConfig.maxEncryptedPlaintextBytes := by
    simp at hlen ⊢
    omega
  unfold queueInternalMessage
  rw [writeMessage_eq, if_neg (not_lt.mpr hlen), ByteWriter.writeBytes_fresh, if_pos hmax]
  exact queueSecure_ok_iff hC hmax .message priority

/-- The queues a send fills: packets, and the messages waiting for acknowledgements. -/
def queues (p : Party) :
    List PendingPacket × List PendingReliableMessage × List PendingReliableMessage :=
  (p.net.pending, p.session.reliable.pending, p.session.orderedReliable.pending)

theorem queues_of_reliableFor (hnet : q.net.pending = p.net.pending)
    (hrel : ∀ ch, (q.session.reliableFor ch).pending = (p.session.reliableFor ch).pending) :
    q.queues = p.queues := by
  have h1 := hrel .reliable
  have h2 := hrel .reliableOrdered
  simp only [Session.reliableFor, reduceCtorEq, if_false, if_true] at h1 h2
  rw [queues, hnet, h1, h2]
  rfl

theorem pending_of_queues (h : q.queues = p.queues) (ch : Channel) :
    (q.session.reliableFor ch).pending = (p.session.reliableFor ch).pending := by
  simp only [queues, Prod.mk.injEq] at h
  unfold Session.reliableFor
  split_ifs
  · exact h.2.2
  · exact h.2.1

theorem Queued.queues_of_error {kind : PacketKind} {priority : SendPriority} {e : Failure}
    (h : Queued C p kind payload priority (.error e) q) : q.queues = p.queues := by
  cases h <;> rfl

/-- Nothing a frame depends on but the room in the queues changed, and that as it should. -/
structure Took (ch : Channel) (len : ℕ) (p q : Party) : Prop where
  side : q.side = p.side
  canSeal : q.canSeal = p.canSeal
  packets : q.net.pending.length = p.net.pending.length + 1
  admits : ch.isReliable = true → ∀ sizes k, (q.session.reliableFor ch).AdmitsAt sizes k ↔
    (p.session.reliableFor ch).AdmitsAt (len :: sizes) (k + 1)

theorem Took.takesAt (h : Took ch len p q) (sizes : List ℕ) (k : ℕ) :
    q.TakesAt ch sizes k ↔ p.TakesAt ch (len :: sizes) (k + 1) := by
  unfold TakesAt
  rw [h.canSeal, h.packets, h.side, Nat.add_assoc, Nat.add_comm 1 k]
  refine and_congr_right fun _ => and_congr_right fun _ => forall_congr' fun hrel => ?_
  exact h.admits hrel sizes k

theorem Took.takes_cons (h : Took ch len p q) (hfirst : p.TakesAt ch [len] 0) (sizes : List ℕ) :
    p.Takes ch (len :: sizes) ↔ q.Takes ch sizes := by
  have hzero : p.TakesAt ch (len :: sizes) 0 := by
    refine ⟨hfirst.1, hfirst.2.1, fun hrel => ?_⟩
    have hadm := hfirst.2.2 hrel
    rw [ReliableSession.admitsAt_zero] at hadm ⊢
    exact hadm
  unfold Takes
  constructor
  · intro hall k hk
    exact (h.takesAt sizes k).mpr (hall (k + 1) (by simpa using hk))
  · intro hall k hk
    cases k with
    | zero => exact hzero
    | succ k => exact (h.takesAt sizes k).mp (hall k (by simpa using hk))

theorem canSeal_congr (hside : q.side = p.side) (hkeys : q.session.keys = p.session.keys)
    (hid : q.session.connId = p.session.connId) : q.canSeal = p.canSeal := by
  unfold canSeal
  rw [hside, hkeys, hid]

theorem Queued.took {kind : PacketKind} {priority : SendPriority}
    (h : Queued C p kind payload priority (.ok ()) q) :
    q.side = p.side ∧ q.canSeal = p.canSeal ∧
      q.net.pending.length = p.net.pending.length + 1 := by
  cases h with
  | queued bytes hbuild hkeys =>
    refine ⟨rfl, rfl, ?_⟩
    exact List.orderedInsert_length _ _ _

/-- Taking the message out again leaves the retransmission queue as it was. -/
def Reverts (ch : Channel) (m : PendingReliableMessage) (p : Party) : Prop :=
  (ReliableSession.insertPending m (p.session.reliableFor ch).pending).eraseP
    (fun x => x.messageId = m.messageId) = (p.session.reliableFor ch).pending

instance (ch : Channel) (m : PendingReliableMessage) (p : Party) : Decidable (p.Reverts ch m) :=
  inferInstanceAs (Decidable (_ = _))

/-- A frame that is refused now leaves nothing behind. -/
def CleanRefusal (ch : Channel) (m : PendingReliableMessage) (len : ℕ) (p : Party) : Prop :=
  ch.isReliable = true → (p.session.reliableFor ch).AdmitsAt [len] 0 → p.Reverts ch m

instance (ch : Channel) (m : PendingReliableMessage) (len : ℕ) (p : Party) :
    Decidable (p.CleanRefusal ch m len) :=
  inferInstanceAs (Decidable (_ → _ → _))

/-- What offering one frame to the queues can do. -/
inductive Offered (ch : Channel) (m : PendingReliableMessage) (len : ℕ) (p : Party) :
    Result Unit → Party → Prop
  | took (q : Party) (htakes : p.TakesAt ch [len] 0) (hq : Took ch len p q) :
      Offered ch m len p (.ok ()) q
  | refused (e : Failure) (q : Party) (hno : ¬p.TakesAt ch [len] 0)
      (hnet : q.net.pending = p.net.pending)
      (hq : q.queues = p.queues ↔ p.CleanRefusal ch m len) : Offered ch m len p (.error e) q

theorem queues_setReliable_of_pending {rs : ReliableSession}
    (h : rs.pending = (p.session.reliableFor ch).pending) :
    (p.mapSession (Session.setReliable ch rs)).queues = p.queues := by
  apply queues_of_reliableFor
  · rfl
  intro ch'
  rw [mapSession_session, Session.reliableFor_setReliable]
  split_ifs with hsame
  · rw [h]
    simp [Session.reliableFor, hsame]
  · rfl

theorem sendReliableMessage_offered (hC : C.IdealAead) (hch : ch.isReliable = true) {d : Bytes}
    (hlen : d.length ≤ NetConfig.maxReliableMessageBytes) (t : UInt8) (o : SendOptions)
    (now : UInt64) (p : Party) :
    Offered ch ((p.session.reliableFor ch).message t d o.priority o.lifetimeMs now) d.length p
      (p.sendReliableMessage C ch t d o.priority o.lifetimeMs now).1
      (p.sendReliableMessage C ch t d o.priority o.lifetimeMs now).2 := by
  unfold sendReliableMessage
  rw [if_neg (not_lt.mpr hlen)]
  by_cases hadm : (p.session.reliableFor ch).AdmitsAt [d.length] 0
  · rw [ReliableSession.enqueue_of_admits hlen hadm]
    dsimp only
    generalize hm : (p.session.reliableFor ch).message t d o.priority o.lifetimeMs now = m
    have henc : m.encodedPayload = be64 (p.session.reliableFor ch).nextMessageId ++ d := by
      rw [← hm]
      rfl
    have hctl : ¬ch = .control := by
      rintro rfl
      cases hch
    rw [← enqueued]
    have hq := queueMessagePacket_queued C ch t m.encodedPayload o.priority
      (p.enqueued ch ((p.session.reliableFor ch).taking m d.length))
    have hok := queueInternalMessage_ok_iff (p := p.enqueued ch
      ((p.session.reliableFor ch).taking m d.length)) hC (d := m.encodedPayload)
      (by rw [henc]; simp at hlen ⊢; omega) ch t o.priority
    have hmsg : ∀ r : Party, r.queueMessagePacket C ch t m.encodedPayload o.priority =
        r.queueInternalMessage C ch t m.encodedPayload o.priority := fun r => if_neg hctl
    have hseal : (p.enqueued ch ((p.session.reliableFor ch).taking m d.length)).canSeal =
        p.canSeal := canSeal_congr rfl (by simp [enqueued, log]) (by simp [enqueued, log])
    have htakes : p.TakesAt ch [d.length] 0 ↔ p.canSeal = true ∧
        p.net.pending.length < p.side.maxPendingPackets.toNat := by
      simp [TakesAt, hadm]
    rw [hseal, ← hmsg] at hok
    change _ ↔ p.canSeal = true ∧ p.net.pending.length < p.side.maxPendingPackets.toNat at hok
    rw [← htakes] at hok
    cases hr : (p.enqueued ch ((p.session.reliableFor ch).taking m d.length)).queueMessagePacket C
        ch t m.encodedPayload o.priority with
    | mk rc r =>
      rw [hr] at hq hok
      have hfor : r.session.reliableFor ch = (p.session.reliableFor ch).taking m d.length :=
        (hq.reliableFor_eq ch).trans (enqueued_reliableFor ch _ p)
      cases rc with
      | ok u =>
        dsimp only
        obtain ⟨hside, hcan, hpkts⟩ := hq.took
        refine .took _ (hok.mp rfl) ⟨hside, ?_, hpkts, fun _ sizes k => ?_⟩
        · rw [← hseal, ← hcan]
          exact canSeal_congr rfl (by simp) (by simp)
        · rw [mapSession_session, Session.reliableFor_setReliable_self, hfor]
          have hsame := ReliableSession.sameNumbers_noteSent m.messageId now
            ((p.session.reliableFor ch).taking m d.length)
          have hcont := ReliableSession.contents_noteSent m.messageId now
            ((p.session.reliableFor ch).taking m d.length)
          have hlen' := congrArg List.length hcont
          simp only [ReliableSession.contents, List.length_map] at hlen'
          have hcfg : _ = (p.session.reliableFor ch).cfg := hsame.cfg
          refine ReliableSession.admitsAt_succ hcfg ?_ ?_ hsame.nextMessageId sizes k
          · rw [hlen']
            exact ReliableSession.length_insertPending _ _
          · rw [ReliableSession.noteSent_pendingBytes]
            rfl
      | error e =>
        dsimp only
        have hnet : r.net.pending = p.net.pending := by
          have hqs := hq.queues_of_error
          simp only [queues, Prod.mk.injEq] at hqs
          exact hqs.1
        refine .refused e _ (fun h => by cases hok.mpr h) hnet ?_
        have hpend : ((r.session.reliableFor ch).acknowledge m.messageId now).2.pending =
            (ReliableSession.insertPending m (p.session.reliableFor ch).pending).eraseP
              fun x => x.messageId = m.messageId := by
          rw [ReliableSession.acknowledge_pending, hfor]
          rfl
        constructor
        · intro hqs _ _
          have := pending_of_queues hqs ch
          rw [mapSession_session, Session.reliableFor_setReliable_self, hpend] at this
          exact this
        · intro hrev
          apply queues_of_reliableFor
          · exact hnet
          · intro ch'
            rw [mapSession_session, Session.reliableFor_setReliable]
            split_ifs with hsame
            · rw [hpend, hrev hch hadm]
              simp [Session.reliableFor, hsame]
            · rw [hq.reliableFor_eq ch']
              refine congrArg _ ((Session.reliableFor_log _ _ _).trans ?_)
              rw [mapSession_session, Session.reliableFor_setReliable, if_neg hsame]
  · obtain ⟨e, rs', he, hpend⟩ := ReliableSession.enqueue_of_not_admits hadm t o.priority
      o.lifetimeMs now
    rw [he]
    have hclean : p.CleanRefusal ch
        ((p.session.reliableFor ch).message t d o.priority o.lifetimeMs now) d.length :=
      fun _ h => absurd h hadm
    have hno : ¬p.TakesAt ch [d.length] 0 := fun h => hadm (h.2.2 hch)
    dsimp only
    split_ifs
    · exact .refused e _ hno rfl (iff_of_true (queues_setReliable_of_pending hpend) hclean)
    · exact .refused e _ hno rfl (iff_of_true (queues_setReliable_of_pending hpend) hclean)

end Party

namespace FragmentedMessage

/-- The piece the fragment loop cuts out of the payload. -/
def cut (m : FragmentedMessage) (i : UInt16) : FragmentView :=
  ⟨m.messageId, m.deliverySequence, m.channel, m.type, i, m.fragmentCount, m.originalLength,
    (m.payload.drop (i.toNat * NetConfig.maxFragmentDataBytes)).take
      (fragmentSizeForIndex m.originalLength i).toNat⟩

/-- The length of an encoded piece. -/
def pieceSize (m : FragmentedMessage) (i : UInt16) : ℕ :=
  NetConfig.fragmentHeaderBytes + (fragmentSizeForIndex m.originalLength i).toNat

def pieceSizes (m : FragmentedMessage) : List ℕ :=
  (Party.pieceIndices m.fragmentCount).map m.pieceSize

variable {m : FragmentedMessage} {i : UInt16}

theorem length_cut_data (hi : i < m.fragmentCount) :
    (m.cut i).data.length = (fragmentSizeForIndex m.originalLength i).toNat := by
  have hi' := UInt16.lt_iff_toNat_lt.mp hi
  have hlen : m.originalLength.toNat ≤ m.payload.length := by
    rw [originalLength, UInt16.toNat_ofNat']
    exact Nat.mod_le _ _
  have hcount := fragmentCountForLength_toNat m.originalLength
  rw [fragmentCount] at hi'
  have hsize := fragmentSizeForIndex_toNat hi'
  simp only [cut, List.length_take, List.length_drop, NetConfig.maxFragmentDataBytes_eq]
  omega

theorem cut_wellFormed (hid : m.messageId ≠ 0) (happ : m.channel ≠ .control)
    (hi : i < m.fragmentCount) : (m.cut i).WellFormed where
  messageId_ne := hid
  application := happ
  originalLength_ne := by
    intro h0
    have hi' := UInt16.lt_iff_toNat_lt.mp hi
    have hz : m.originalLength = 0 := h0
    rw [fragmentCount, fragmentCountForLength_toNat, hz] at hi'
    simp at hi'
  count := rfl
  index := hi
  size := length_cut_data hi

theorem length_encode_cut (hi : i < m.fragmentCount) : (m.cut i).encode.length = m.pieceSize i := by
  rw [FragmentView.length_encode, length_cut_data hi]
  rfl

theorem pieceSize_le (hi : i < m.fragmentCount) : m.pieceSize i ≤ 1236 := by
  have := fragmentSizeForIndex_le (UInt16.lt_iff_toNat_lt.mp hi)
  simp only [pieceSize, NetConfig.fragmentHeaderBytes_eq]
  omega

end FragmentedMessage

namespace Party

variable {p q : Party} {m : FragmentedMessage}

/-- The pending message the first piece of a fragmented message becomes. -/
def firstPiece (o : SendOptions) (now : UInt64) (m : FragmentedMessage) (p : Party) :
    PendingReliableMessage :=
  (p.session.reliableFor o.channel).message ControlType.fragment.code (m.cut 0).encode o.priority
    o.lifetimeMs now

section

variable (o : SendOptions) (now : UInt64) {is : List UInt16}

theorem sendPiece_of_messageId_eq_zero (hid : m.messageId = 0) (i : UInt16) :
    ∃ e, p.sendPiece C o now m i = (.error e, p) := by
  refine ⟨⟨.invalidArg, "fragment message_id must be non-zero"⟩, ?_⟩
  unfold sendPiece writeFragmentPayload
  simp only [hid, if_true]
  rfl

/-- One piece is offered to the queues like any other frame. -/
theorem sendPiece_offered (hC : C.IdealAead) (hid : m.messageId ≠ 0) (happ : m.channel ≠ .control)
    {i : UInt16} (hi : i < m.fragmentCount) (p : Party) :
    Offered o.channel ((p.session.reliableFor o.channel).message ControlType.fragment.code
        (m.cut i).encode o.priority o.lifetimeMs now) (m.pieceSize i) p
      (p.sendPiece C o now m i).1 (p.sendPiece C o now m i).2 := by
  have hsize := FragmentedMessage.pieceSize_le hi
  have hlen := FragmentedMessage.length_encode_cut hi
  have hwrite := writeFragmentPayload_eq (FragmentedMessage.cut_wellFormed hid happ hi)
    ⟨NetConfig.maxMessageBytes, []⟩
  rw [ByteWriter.writeBytes_fresh, if_pos (by rw [hlen]; simp; omega)] at hwrite
  have hpiece : p.sendPiece C o now m i =
      if o.channel.isReliable then
        p.sendReliableMessage C o.channel ControlType.fragment.code (m.cut i).encode o.priority
          o.lifetimeMs now
      else p.queueInternalMessage C .control ControlType.fragment.code (m.cut i).encode
        o.priority := by
    unfold FragmentedMessage.cut at hwrite ⊢
    unfold sendPiece
    dsimp only
    rw [hwrite]
  rw [hpiece]
  split_ifs with hrel
  · have hoff := sendReliableMessage_offered hC hrel (d := (m.cut i).encode)
      (by rw [hlen]; simp; omega) ControlType.fragment.code o now p
    rwa [hlen] at hoff
  · have hok := queueInternalMessage_ok_iff (p := p) hC (d := (m.cut i).encode)
      (by rw [hlen]; simp; omega) .control ControlType.fragment.code o.priority
    have hq := queueInternalMessage_queued C .control ControlType.fragment.code (m.cut i).encode
      o.priority p
    have htakes : p.TakesAt o.channel [m.pieceSize i] 0 ↔ p.canSeal = true ∧
        p.net.pending.length < p.side.maxPendingPackets.toNat := by
      simp [TakesAt, hrel]
    rw [← htakes] at hok
    cases hr : p.queueInternalMessage C .control ControlType.fragment.code (m.cut i).encode
        o.priority with
    | mk rc r =>
      rw [hr] at hq hok
      cases rc with
      | ok u =>
        obtain ⟨hside, hcan, hpkts⟩ := hq.took
        exact .took r (hok.mp rfl) ⟨hside, hcan, hpkts, fun h => absurd h hrel⟩
      | error e =>
        have hqs := hq.queues_of_error
        refine .refused e r (fun h => by cases hok.mpr h) ?_ ?_
        · simp only [queues, Prod.mk.injEq] at hqs
          exact hqs.1
        · exact iff_of_true hqs fun h => absurd h hrel

/-- The fragment loop succeeds exactly when the queues take all its pieces. -/
theorem sendPieces_ok_iff (hC : C.IdealAead) (hid : m.messageId ≠ 0) (happ : m.channel ≠ .control)
    (his : ∀ i ∈ is, i < m.fragmentCount) (p : Party) :
    (p.sendPieces C o now m is).1 = .ok () ↔ p.Takes o.channel (is.map m.pieceSize) := by
  induction is generalizing p with
  | nil => simp [sendPieces, Takes]
  | cons i is ih =>
    have hoff := sendPiece_offered o now hC hid happ (his i (by simp)) p
    unfold sendPieces
    cases hr : p.sendPiece C o now m i with
    | mk rc q =>
      rw [hr] at hoff
      cases hoff with
      | took q htakes hq =>
        rw [List.map_cons, hq.takes_cons htakes]
        exact ih (fun j hj => his j (List.mem_cons_of_mem _ hj)) q
      | refused e q hno hnet hq =>
        refine iff_of_false (by simp) fun hall => hno ?_
        obtain ⟨hcan, hroom, hrel⟩ := hall 0 (by simp)
        refine ⟨hcan, hroom, fun h => ?_⟩
        rw [ReliableSession.admitsAt_zero]
        exact ReliableSession.admitsAt_zero.mp (hrel h)

/-- The fragment loop takes no packet out of the queue. -/
theorem length_pending_sendPieces (hC : C.IdealAead) (hid : m.messageId ≠ 0)
    (happ : m.channel ≠ .control) (his : ∀ i ∈ is, i < m.fragmentCount) (p : Party) :
    p.net.pending.length ≤ (p.sendPieces C o now m is).2.net.pending.length := by
  induction is generalizing p with
  | nil => exact le_refl _
  | cons i is ih =>
    have hoff := sendPiece_offered o now hC hid happ (his i (by simp)) p
    unfold sendPieces
    cases hr : p.sendPiece C o now m i with
    | mk rc q =>
      rw [hr] at hoff
      cases hoff with
      | took q htakes hq =>
        have := ih (fun j hj => his j (List.mem_cons_of_mem _ hj)) q
        rw [hq.packets] at this
        exact (Nat.le_succ _).trans this
      | refused e q hno hnet hq =>
        dsimp only
        rw [hnet]

/-- A loop that fails leaves the queues alone exactly when it fails cleanly at its first piece. -/
theorem sendPieces_queues_iff (hC : C.IdealAead) (hid : m.messageId ≠ 0)
    (happ : m.channel ≠ .control) {i : UInt16} (his : ∀ j ∈ i :: is, j < m.fragmentCount)
    {e : Failure} (herr : (p.sendPieces C o now m (i :: is)).1 = .error e) :
    (p.sendPieces C o now m (i :: is)).2.queues = p.queues ↔
      ¬p.TakesAt o.channel [m.pieceSize i] 0 ∧
        p.CleanRefusal o.channel ((p.session.reliableFor o.channel).message
          ControlType.fragment.code (m.cut i).encode o.priority o.lifetimeMs now)
          (m.pieceSize i) := by
  have hoff := sendPiece_offered o now hC hid happ (his i (by simp)) p
  unfold sendPieces at herr ⊢
  cases hr : p.sendPiece C o now m i with
  | mk rc q =>
    rw [hr] at hoff herr
    cases hoff with
    | took q htakes hq =>
      refine iff_of_false ?_ fun h => h.1 htakes
      -- One packet was queued, and nothing takes it out again.
      intro hqs
      have hle := length_pending_sendPieces o now hC hid happ
        (fun j hj => his j (List.mem_cons_of_mem i hj)) q
      have hlen := congrArg (fun x => List.length (Prod.fst x)) hqs
      simp only [queues] at hlen
      rw [hq.packets] at hle
      omega
    | refused e q hno hnet hq =>
      rw [hq]
      exact (and_iff_right hno).symm

end

/-- The policy lets the payload be cut up. -/
def AllowsFragments (o : SendOptions) (payload : Bytes) (p : Party) : Prop :=
  p.side.fragmentation.enabled = true ∧ o.channel.isApplication = true ∧
    payload.length ≤ p.side.fragmentation.maxReassembledMessageBytes.toNat ∧
    fragmentCountForLength (UInt16.ofNat payload.length) ≠ 0 ∧
    fragmentCountForLength (UInt16.ofNat payload.length) ≤
      p.side.fragmentation.maxFragmentsPerMessage

instance (o : SendOptions) (payload : Bytes) (p : Party) : Decidable (p.AllowsFragments o payload) :=
  inferInstanceAs (Decidable (_ ∧ _))

/-- The state the fragment loop starts in. -/
def startFragments (ch : Channel) (p : Party) : Party :=
  ((p.mapSession Session.drawFragmentId).drawDeliverySequence ch).2

/-- Drawing the numbers of a message changes no queue and no limit. -/
structure SameQueues (p q : Party) : Prop where
  side : q.side = p.side
  net : q.net = p.net
  keys : q.session.keys = p.session.keys
  connId : q.session.connId = p.session.connId
  reliable : q.session.reliable = p.session.reliable
  orderedReliable : q.session.orderedReliable = p.session.orderedReliable

theorem SameQueues.trans {r : Party} (h : SameQueues p q) (h' : SameQueues q r) :
    SameQueues p r where
  side := h'.side.trans h.side
  net := h'.net.trans h.net
  keys := h'.keys.trans h.keys
  connId := h'.connId.trans h.connId
  reliable := h'.reliable.trans h.reliable
  orderedReliable := h'.orderedReliable.trans h.orderedReliable

theorem sameQueues_drawFragmentId (p : Party) :
    SameQueues p (p.mapSession Session.drawFragmentId) := ⟨rfl, rfl, rfl, rfl, rfl, rfl⟩

theorem sameQueues_drawOrdered (p : Party) :
    SameQueues p (p.mapSession Session.drawOrdered) := ⟨rfl, rfl, rfl, rfl, rfl, rfl⟩

theorem sameQueues_drawSequenced (p : Party) :
    SameQueues p (p.mapSession Session.drawSequenced) := ⟨rfl, rfl, rfl, rfl, rfl, rfl⟩

theorem sameQueues_startFragments (ch : Channel) (p : Party) :
    SameQueues p (p.startFragments ch) := by
  have hid := sameQueues_drawFragmentId p
  unfold startFragments drawDeliverySequence
  split_ifs
  · exact hid.trans (sameQueues_drawOrdered _)
  · exact hid.trans (sameQueues_drawSequenced _)
  · exact hid

namespace SameQueues

variable (h : SameQueues p q)
include h

theorem reliableFor (ch : Channel) : q.session.reliableFor ch = p.session.reliableFor ch :=
  Session.reliableFor_congr h.reliable h.orderedReliable

theorem queues : q.queues = p.queues := by
  rw [Party.queues, h.net, h.reliable, h.orderedReliable]
  rfl

theorem takesAt (ch : Channel) (sizes : List ℕ) (k : ℕ) :
    q.TakesAt ch sizes k ↔ p.TakesAt ch sizes k := by
  unfold TakesAt
  rw [canSeal_congr h.side h.keys h.connId, h.net, h.side, h.reliableFor]

theorem takes (ch : Channel) (sizes : List ℕ) : q.Takes ch sizes ↔ p.Takes ch sizes :=
  forall₂_congr fun k _ => h.takesAt ch sizes k

theorem cleanRefusal (ch : Channel) (m : PendingReliableMessage) (len : ℕ) :
    q.CleanRefusal ch m len ↔ p.CleanRefusal ch m len := by
  unfold CleanRefusal Reverts
  rw [h.reliableFor]

end SameQueues

variable {o : SendOptions} {payload : Bytes}

theorem sendFragmented_of_not_allows (h : ¬p.AllowsFragments o payload) (t : UInt8) (now : UInt64) :
    ∃ e, p.sendFragmented C o t payload now = (.error e, p) := by
  unfold sendFragmented
  dsimp only
  split_ifs with h1 h2 h3 h4
  · exact ⟨_, rfl⟩
  · exact ⟨_, rfl⟩
  · exact ⟨_, rfl⟩
  · exact ⟨_, rfl⟩
  · exfalso
    apply h
    rw [not_or, UInt16.not_lt] at h4
    exact ⟨by simpa using h1, by simpa using h2, not_lt.mp h3, h4⟩

theorem sendFragmented_of_allows (h : p.AllowsFragments o payload) (t : UInt8) (now : UInt64) :
    p.sendFragmented C o t payload now =
      (p.startFragments o.channel).sendPieces C o now
        (p.session.fragmentedMessage o.channel t payload)
        (pieceIndices (p.session.fragmentedMessage o.channel t payload).fragmentCount) := by
  obtain ⟨henabled, happ, hlen, hcount, hmax⟩ := h
  have hseq := (drawDeliverySequence_sending (C := C) o.priority o.channel p).2.1
  unfold sendFragmented
  rw [if_neg (by simp [henabled]), if_neg (by simp [happ]), if_neg (not_lt.mpr hlen)]
  dsimp only
  rw [if_neg (not_or.mpr ⟨hcount, UInt16.not_lt.mpr hmax⟩), hseq]
  rfl

theorem pieceIndices_eq_cons {count : UInt16} (h : count ≠ 0) :
    ∃ is, pieceIndices count = 0 :: is := by
  obtain ⟨n, hn⟩ := Nat.exists_eq_succ_of_ne_zero fun h0 : count.toNat = 0 =>
    h (UInt16.toNat_inj.mp h0)
  refine ⟨((List.range n).map Nat.succ).map UInt16.ofNat, ?_⟩
  rw [pieceIndices, hn, List.range_succ_eq_map]
  rfl

/-- A fragmented send fits as a whole, or is refused before it leaves anything behind. -/
def AllOrNothing (o : SendOptions) (t : UInt8) (payload : Bytes) (now : UInt64) (p : Party) : Prop :=
  let m := p.session.fragmentedMessage o.channel t payload
  ¬p.AllowsFragments o payload ∨ m.messageId = 0 ∨ p.Takes o.channel m.pieceSizes ∨
    (¬p.TakesAt o.channel [m.pieceSize 0] 0 ∧
      p.CleanRefusal o.channel (p.firstPiece o now m) (m.pieceSize 0))

instance (o : SendOptions) (t : UInt8) (payload : Bytes) (now : UInt64) (p : Party) :
    Decidable (p.AllOrNothing o t payload now) :=
  inferInstanceAs (Decidable (_ ∨ _))

/-- A failed fragmented send leaves both kinds of queues as they were exactly when it was
refused at its first piece or before. -/
theorem sendFragmented_allOrNothing_iff (hC : C.IdealAead) (o : SendOptions) (t : UInt8)
    (payload : Bytes) (now : UInt64) (p : Party) :
    (∀ e, (p.sendFragmented C o t payload now).1 = .error e →
        (p.sendFragmented C o t payload now).2.queues = p.queues) ↔
      p.AllOrNothing o t payload now := by
  unfold AllOrNothing
  dsimp only
  by_cases hallow : p.AllowsFragments o payload
  swap
  · obtain ⟨e, he⟩ := sendFragmented_of_not_allows (C := C) hallow t now
    rw [he]
    exact iff_of_true (fun _ _ => rfl) (Or.inl hallow)
  have hstart := sameQueues_startFragments o.channel p
  rw [sendFragmented_of_allows hallow]
  generalize hm : p.session.fragmentedMessage o.channel t payload = m
  have happ : m.channel ≠ .control := by
    rw [← hm]
    simpa [Channel.isApplication, Session.fragmentedMessage] using hallow.2.1
  have hcount : m.fragmentCount ≠ 0 := by
    rw [← hm]
    exact hallow.2.2.2.1
  obtain ⟨is, his⟩ := pieceIndices_eq_cons hcount
  by_cases hid : m.messageId = 0
  · obtain ⟨e, he⟩ := sendPiece_of_messageId_eq_zero (C := C)
      (p := p.startFragments o.channel) o now hid 0
    rw [his, sendPieces, he]
    exact iff_of_true (fun _ _ => hstart.queues) (Or.inr (Or.inl hid))
  have hlt : ∀ j ∈ pieceIndices m.fragmentCount, j < m.fragmentCount :=
    fun j hj => lt_of_mem_pieceIndices hj
  have hok := sendPieces_ok_iff o now hC hid happ hlt (p.startFragments o.channel)
  rw [hstart.takes] at hok
  change _ ↔ p.Takes o.channel m.pieceSizes at hok
  by_cases hfit : p.Takes o.channel m.pieceSizes
  · refine iff_of_true ?_ (Or.inr (Or.inr (Or.inl hfit)))
    intro e he
    rw [hok.mpr hfit] at he
    cases he
  · have hfail : ∃ e, ((p.startFragments o.channel).sendPieces C o now m
        (pieceIndices m.fragmentCount)).1 = .error e := by
      cases hr : ((p.startFragments o.channel).sendPieces C o now m
        (pieceIndices m.fragmentCount)).1 with
      | error e => exact ⟨e, rfl⟩
      | ok u => exact absurd (hok.mp hr) hfit
    obtain ⟨e, he⟩ := hfail
    have hiff := sendPieces_queues_iff o now hC hid happ (his ▸ hlt) (his ▸ he)
    rw [← his, hstart.queues, hstart.takesAt, hstart.cleanRefusal, hstart.reliableFor] at hiff
    simp only [hid, hfit, hallow, not_true_eq_false, false_or]
    rw [firstPiece, ← hiff]
    exact ⟨fun h => h e he, fun h _ _ => h⟩

/-- An established client whose packet queue holds a single packet. -/
def crampedClient : Party where
  side := .client { maxPendingPackets := 1 }
  session := { connId := 1, state := .established,
               keys := ⟨List.Vector.replicate 32 1, List.Vector.replicate 32 2⟩ }
  net := { sockOpen := true }

/-- Its first piece stays in the packet queue and in the retransmission queue when the second
one finds the packet queue full. -/
theorem sendFragmented_leaves_first_piece :
    let r := crampedClient.sendFragmented .standIn { channel := .reliable } 7
      (List.replicate 1300 0) 5
    r.1 = fail .queueFull "pending packet queue full" ∧ r.2.net.pending.length = 1 ∧
      r.2.session.reliable.pending.length = 1 ∧ r.2.queues ≠ crampedClient.queues := by
  decide +kernel

def stuckClient : Party :=
  (crampedClient.send .standIn { channel := .unreliable } 7 [1] 5).2

/-- There the first piece is refused, and the retransmission queue is as before. -/
theorem sendFragmented_allOrNothing_stuck :
    (stuckClient.sendFragmented .standIn { channel := .reliable } 7 (List.replicate 1300 0) 6).1 =
        .error ⟨.queueFull, "pending packet queue full"⟩ ∧
      (stuckClient.sendFragmented .standIn { channel := .reliable } 7
        (List.replicate 1300 0) 6).2.queues = stuckClient.queues :=
  ⟨by decide +kernel, (sendFragmented_allOrNothing_iff Crypto.standIn_idealAead _ _ _ _ _).mpr
    (by decide +kernel) ⟨.queueFull, "pending packet queue full"⟩ (by decide +kernel)⟩

end Party

end SecureCnet
