import SecureCnet.Link.Run
import SecureCnet.Session.Admission

/-!
# Numbers of the ordered channel

An ordered send takes its sequence number before the queues can refuse it, and a
refused send does not give the number back. The successful sends of a run are
numbered without holes when every ordered send of the run either fits or is
refused by the checks in front of the counter.
-/

namespace SecureCnet

variable {C : Crypto}

namespace Party

variable {p q : Party} {payload : Bytes} {o : SendOptions}

theorem Queued.nextOrderedSequence_eq {kind : PacketKind} {priority : SendPriority}
    {rc : Result Unit} (h : Queued C p kind payload priority rc q) :
    q.session.nextOrderedSequence = p.session.nextOrderedSequence := by
  obtain ⟨n, es, net, rfl, -⟩ := h.upToNumber
  rfl

theorem sendReliableMessage_nextOrderedSequence (ch : Channel) (t : UInt8) (d : Bytes)
    (priority : SendPriority) (life now : UInt64) (p : Party) :
    (p.sendReliableMessage C ch t d priority life now).2.session.nextOrderedSequence =
      p.session.nextOrderedSequence := by
  unfold sendReliableMessage
  split_ifs
  · rfl
  cases (p.session.reliableFor ch).enqueue t d priority life now with
  | mk rc rs =>
    cases rc with
    | error e =>
      dsimp only
      split_ifs <;> simp [log]
    | ok m =>
      dsimp only
      rw [← enqueued]
      have hq := (queueMessagePacket_queued C ch t m.encodedPayload priority
        (p.enqueued ch rs)).nextOrderedSequence_eq
      have henq : (p.enqueued ch rs).session.nextOrderedSequence =
          p.session.nextOrderedSequence := by simp [enqueued, log]
      rw [henq] at hq
      cases hr : (p.enqueued ch rs).queueMessagePacket C ch t m.encodedPayload priority with
      | mk rc q =>
        rw [hr] at hq
        cases rc <;> simpa using hq

theorem sendPiece_nextOrderedSequence (o : SendOptions) (now : UInt64) (m : FragmentedMessage)
    (i : UInt16) (p : Party) :
    (p.sendPiece C o now m i).2.session.nextOrderedSequence = p.session.nextOrderedSequence := by
  unfold sendPiece
  dsimp only
  split
  · rfl
  · split_ifs
    · exact sendReliableMessage_nextOrderedSequence _ _ _ _ _ _ _
    · exact (queueInternalMessage_queued C _ _ _ _ p).nextOrderedSequence_eq

theorem sendPieces_nextOrderedSequence (o : SendOptions) (now : UInt64) (m : FragmentedMessage)
    (is : List UInt16) (p : Party) :
    (p.sendPieces C o now m is).2.session.nextOrderedSequence = p.session.nextOrderedSequence := by
  induction is generalizing p with
  | nil => rfl
  | cons i is ih =>
    have hpiece := sendPiece_nextOrderedSequence (C := C) o now m i p
    unfold sendPieces
    cases hr : p.sendPiece C o now m i with
    | mk rc q =>
      rw [hr] at hpiece
      cases rc with
      | error e => exact hpiece
      | ok u => exact (ih q).trans hpiece

theorem startFragments_nextOrderedSequence (ch : Channel) (p : Party) :
    (p.startFragments ch).session.nextOrderedSequence =
      if ch = .reliableOrdered then p.session.nextOrderedSequence + 1
      else p.session.nextOrderedSequence := by
  unfold startFragments drawDeliverySequence
  split_ifs <;> rfl

/-- The call returns before it takes an ordered number. -/
def RefusedEarly (o : SendOptions) (payload : Bytes) (p : Party) : Prop :=
  p.session.state ≠ .established ∨ 0xFFFF < payload.length ∨
    (o.channel.maxInlinePayloadSize < payload.length ∧ ¬p.AllowsFragments o payload)

/-- The queues take every frame of an ordered message. -/
def AcceptsOrdered (o : SendOptions) (t : UInt8) (payload : Bytes) (p : Party) : Prop :=
  if o.channel.maxInlinePayloadSize < payload.length then
    p.session.nextFragmentMessageId ≠ 0 ∧
      p.Takes .reliableOrdered (p.session.fragmentedMessage o.channel t payload).pieceSizes
  else p.session.nextOrderedSequence ≠ 0 ∧
    p.Takes .reliableOrdered [NetConfig.orderedEnvelopeBytes + payload.length]

/-- An ordered send that wastes no number. -/
def KeepsOrdered (o : SendOptions) (t : UInt8) (payload : Bytes) (p : Party) : Prop :=
  p.RefusedEarly o payload ∨ p.AcceptsOrdered o t payload

instance (o : SendOptions) (payload : Bytes) (p : Party) : Decidable (p.RefusedEarly o payload) :=
  inferInstanceAs (Decidable (_ ∨ _))

instance (o : SendOptions) (t : UInt8) (payload : Bytes) (p : Party) :
    Decidable (p.AcceptsOrdered o t payload) :=
  inferInstanceAs (Decidable (if o.channel.maxInlinePayloadSize < payload.length then
    _ ∧ _ else _ ∧ _))

instance (o : SendOptions) (t : UInt8) (payload : Bytes) (p : Party) :
    Decidable (p.KeepsOrdered o t payload) :=
  inferInstanceAs (Decidable (_ ∨ _))

theorem send_of_refusedEarly (h : p.RefusedEarly o payload) (happ : o.channel.isApplication = true)
    (t : UInt8) (now : UInt64) : ∃ e, p.send C o t payload now = (.error e, p) := by
  unfold send
  by_cases hest : p.session.state ≠ .established
  · rw [if_pos hest]
    exact ⟨_, rfl⟩
  rw [if_neg hest, if_neg (by simp [happ])]
  by_cases hlen : 0xFFFF < payload.length
  · rw [if_pos hlen]
    exact ⟨_, rfl⟩
  obtain ⟨hfrag, hno⟩ := (h.resolve_left hest).resolve_left hlen
  rw [if_neg hlen, if_pos hfrag]
  exact sendFragmented_of_not_allows hno t now

/-- Past the early checks an ordered send takes a number, and succeeds if its frames fit. -/
theorem send_ordered (hC : C.IdealAead) (hch : o.channel = .reliableOrdered)
    (h : ¬p.RefusedEarly o payload) (t : UInt8) (now : UInt64) :
    (p.send C o t payload now).2.session.nextOrderedSequence =
        p.session.nextOrderedSequence + 1 ∧
      ((p.send C o t payload now).1 = .ok () ↔ p.AcceptsOrdered o t payload) := by
  simp only [RefusedEarly, not_or, not_and, not_not] at h
  obtain ⟨hest, hlen, hallow⟩ := h
  unfold send AcceptsOrdered
  rw [if_neg (not_not.mpr hest), if_neg (by simp [hch, Channel.isApplication]), if_neg hlen]
  by_cases hfrag : o.channel.maxInlinePayloadSize < payload.length
  · rw [if_pos hfrag, if_pos hfrag, sendFragmented_of_allows (hallow hfrag)]
    refine ⟨?_, ?_⟩
    · rw [sendPieces_nextOrderedSequence, startFragments_nextOrderedSequence, if_pos hch]
    by_cases hid : p.session.nextFragmentMessageId = 0
    · obtain ⟨is, his⟩ := pieceIndices_eq_cons (hallow hfrag).2.2.2.1
      obtain ⟨e, he⟩ := @sendPiece_of_messageId_eq_zero C (p.startFragments o.channel)
        (p.session.fragmentedMessage o.channel t payload) o now hid 0
      have hcount : pieceIndices (p.session.fragmentedMessage o.channel t payload).fragmentCount =
        0 :: is := his
      rw [hcount, sendPieces, he]
      simp [hid]
    · rw [sendPieces_ok_iff o now hC hid (by simp [Session.fragmentedMessage, hch])
        (fun j hj => lt_of_mem_pieceIndices hj), (sameQueues_startFragments _ p).takes, hch]
      exact (and_iff_right hid).symm
  · rw [if_neg hfrag, if_neg hfrag, if_neg (by simp [hch]), if_pos hch]
    dsimp only
    have hmax : payload.length ≤ NetConfig.maxOrderedMessageBytes := by
      rw [hch] at hfrag
      exact not_lt.mp hfrag
    rw [writeOrderedPayload, writeEnvelope_eq, if_neg (not_lt.mpr hmax)]
    by_cases hseq : p.session.nextOrderedSequence = 0
    · rw [if_pos hseq]
      exact ⟨rfl, iff_of_false (Result.fail_ne_ok _ _ _) fun h => h.1 hseq⟩
    rw [if_neg hseq, ByteWriter.writeBytes_fresh, if_pos (by simp at hmax ⊢; omega)]
    dsimp only
    refine ⟨sendReliableMessage_nextOrderedSequence _ _ _ _ _ _ _, ?_⟩
    have hd : (be64 p.session.nextOrderedSequence ++ payload).length =
        NetConfig.orderedEnvelopeBytes + payload.length := by simp [NetConfig.orderedEnvelopeBytes]
    have hoff := sendReliableMessage_offered hC (show Channel.reliableOrdered.isReliable = true from
      rfl) (d := be64 p.session.nextOrderedSequence ++ payload) (by simp at hmax ⊢; omega) t o now
      (p.mapSession Session.drawOrdered)
    rw [hd] at hoff
    rw [and_iff_right hseq, takes_singleton, ← (sameQueues_drawOrdered p).takesAt]
    cases hr : (p.mapSession Session.drawOrdered).sendReliableMessage C .reliableOrdered t
        (be64 p.session.nextOrderedSequence ++ payload) o.priority o.lifetimeMs now with
    | mk rc q =>
      rw [hr] at hoff
      cases hoff with
      | took q htakes hq => exact iff_of_true rfl htakes
      | refused e q hno hnet hq => exact iff_of_false (by simp) hno

/-- A failed ordered send leaves the counter alone exactly when it was refused early. -/
theorem send_keepsOrdered_iff (hC : C.IdealAead) (hch : o.channel = .reliableOrdered) (t : UInt8)
    (payload : Bytes) (now : UInt64) (p : Party) :
    (∀ e, (p.send C o t payload now).1 = .error e →
        (p.send C o t payload now).2.session.nextOrderedSequence =
          p.session.nextOrderedSequence) ↔
      p.KeepsOrdered o t payload := by
  by_cases hearly : p.RefusedEarly o payload
  · obtain ⟨e, he⟩ := send_of_refusedEarly (C := C) hearly (by simp [hch, Channel.isApplication]) t
      now
    rw [he]
    exact iff_of_true (fun _ _ => rfl) (Or.inl hearly)
  obtain ⟨hnext, hok⟩ := send_ordered hC hch hearly t now
  have hne : p.session.nextOrderedSequence + 1 ≠ p.session.nextOrderedSequence := by
    intro h
    have := congrArg UInt64.toNat h
    rw [UInt64.toNat_add] at this
    have hlt := p.session.nextOrderedSequence.toNat_lt
    have hone : (1 : UInt64).toNat = 1 := rfl
    omega
  rw [KeepsOrdered, or_iff_right hearly, ← hok, hnext]
  constructor
  · intro h
    cases hr : (p.send C o t payload now).1 with
    | error e => exact absurd (h e hr) hne
    | ok u => rfl
  · intro h e he
    rw [h] at he
    cases he

/-- Sends on the other channels take no ordered number. -/
theorem send_nextOrderedSequence_of_ne (hch : o.channel ≠ .reliableOrdered) (t : UInt8)
    (payload : Bytes) (now : UInt64) (p : Party) :
    (p.send C o t payload now).2.session.nextOrderedSequence = p.session.nextOrderedSequence := by
  unfold send
  split_ifs
  · rfl
  · rfl
  · rfl
  · by_cases hallow : p.AllowsFragments o payload
    · rw [sendFragmented_of_allows hallow, sendPieces_nextOrderedSequence,
        startFragments_nextOrderedSequence, if_neg hch]
    · obtain ⟨e, he⟩ := sendFragmented_of_not_allows (C := C) hallow t now
      rw [he]
  · exact sendReliableMessage_nextOrderedSequence _ _ _ _ _ _ _
  · dsimp only
    split
    · rfl
    · exact (queueMessagePacket_queued C _ _ _ _ _).nextOrderedSequence_eq
  · exact (queueMessagePacket_queued C _ _ _ _ _).nextOrderedSequence_eq

theorem Steps.numbers_eq {A : Channel → UInt64 → Prop} (h : Steps C A p q) :
    q.Dead ∨ q.session.numbers = p.session.numbers := by
  induction h with
  | refl => exact Or.inr rfl
  | tail _ hc ih =>
    rcases ih with hd | hn
    · exact Or.inl (hc.dead hd)
    · rcases hc.sameCounters with hd | hs
      · exact Or.inl hd
      · exact Or.inr (hs.numbers.trans hn)

end Party

/-- The ordered number in the frames of a call. -/
def SendRecord.orderedSequence (r : SendRecord) : UInt64 :=
  if r.Fragmented then r.message.deliverySequence else r.before.nextOrderedSequence

theorem SendRecord.orderedSequence_eq {r : SendRecord}
    (h : r.options.channel = .reliableOrdered) :
    r.orderedSequence = r.before.nextOrderedSequence := by
  unfold orderedSequence message Session.fragmentedMessage
  simp [h]

namespace End

variable {e : End}

/-- Steps of one end; before each of them the datagrams on the wire may be any. -/
def run (C : Crypto) (steps : List (List Bytes × Op)) (e : End) : End :=
  steps.foldl (fun e s => e.step C s.1 s.2) e

/-- Every step is taken in a state that meets a condition. -/
def Meets (C : Crypto) (K : Op → End → Prop) : List (List Bytes × Op) → End → Prop
  | [], _ => True
  | s :: steps, e => K s.2 e ∧ Meets C K steps (e.step C s.1 s.2)

instance (C : Crypto) (K : Op → End → Prop) [∀ op e, Decidable (K op e)] :
    ∀ (steps : List (List Bytes × Op)) (e : End), Decidable (Meets C K steps e)
  | [], _ => .isTrue trivial
  | s :: steps, e =>
    have := instDecidableMeets C K steps (e.step C s.1 s.2)
    inferInstanceAs (Decidable (_ ∧ _))

/-- An ordered send of this step wastes no number. -/
def KeepsOrdered (op : Op) (e : End) : Prop :=
  match op with
  | .send o t payload _ => o.channel = .reliableOrdered → e.party.KeepsOrdered o t payload
  | _ => True

instance : ∀ (op : Op) (e : End), Decidable (KeepsOrdered op e)
  | .send _ _ _ _, _ => inferInstanceAs (Decidable (_ → _))
  | .sendPayload _, _ | .pumpReliable _, _ | .flush _ _ _, _ | .receive _ _, _
  | .runHousekeeping _, _ | .close _ _, _ | .violation _ _, _ | .others _ _, _ => .isTrue trivial

/-- The ordered numbers of the successful ordered sends, in send order. -/
def orderedNumbers (e : End) : List UInt64 :=
  (e.sends.filter fun r => r.ok && r.options.channel = .reliableOrdered).map
    SendRecord.orderedSequence

/-- The numbers used so far are the first ones, and the counter stands behind them. -/
structure Consecutive (e : End) : Prop where
  numbers : e.orderedNumbers =
    (List.range e.orderedNumbers.length).map fun i => UInt64.ofNat (1 + i)
  next : e.party.Dead ∨
    e.party.session.nextOrderedSequence = UInt64.ofNat (1 + e.orderedNumbers.length)

theorem step_numbers (w : List Bytes) {op : Op}
    (hop : ∀ o t payload now, op ≠ .send o t payload now) (hd : ¬(e.step C w op).party.Dead) :
    (e.step C w op).party.session.numbers = e.party.session.numbers := by
  have hsteps : ∀ {p}, Party.Steps C (fun _ _ => True) e.party p → ¬p.Dead →
      p.session.numbers = e.party.session.numbers := fun hs hd => hs.numbers_eq.resolve_left hd
  cases op with
  | send o t payload now => exact absurd rfl (hop o t payload now)
  | sendPayload data => exact hsteps (Party.sendPayload_steps data e.party) hd
  | pumpReliable now => exact hsteps (Party.pumpReliable_steps now e.party) hd
  | flush i now socket =>
    obtain ⟨budget, lastSendMs, net, heq, -⟩ := Party.flushAt_shape now i socket e.party
    change (e.party.flushAt now i socket).2.session.numbers = _
    rw [heq]
    rfl
  | receive i now =>
    rw [step_receive] at hd ⊢
    cases hw : w[i]? with
    | none => rfl
    | some datagram =>
      rw [hw] at hd
      exact hsteps (Party.receive_steps now datagram e.party fun _ _ _ _ _ =>
        Or.inl fun _ _ => trivial) hd
  | runHousekeeping now => exact hsteps (Party.runHousekeeping_steps now e.party) hd
  | close now reason => exact hsteps (Party.close_steps now reason e.party) hd
  | violation now reason => exact hsteps (Party.violation_steps now reason e.party) hd
  | others net otherMemory =>
    rw [step_others]
    split_ifs <;> rfl

theorem dead_step (w : List Bytes) (op : Op) (hd : e.party.Dead) : (e.step C w op).party.Dead := by
  by_cases hop : ∃ i now, op = .receive i now
  · obtain ⟨i, now, rfl⟩ := hop
    rw [step_receive]
    cases w[i]? with
    | none => exact hd
    | some datagram =>
      dsimp only
      rw [Party.receive_of_dead hd]
      exact hd
  · have hquiet : ∀ i now, op ≠ .receive i now := fun i now heq => hop ⟨i, now, heq⟩
    rcases step_silent (C := C) (e := e) w hquiet with hs | ⟨now, hs⟩
    · exact hs.dead hd
    · exact hs.dead ⟨hd.1, hd.2.1, hd.2.2⟩

theorem orderedNumbers_of_sends {e' : End} (h : e'.sends = e.sends) :
    e'.orderedNumbers = e.orderedNumbers := by
  rw [orderedNumbers, h]
  rfl

theorem orderedNumbers_snoc {e' : End} {r : SendRecord} (h : e'.sends = e.sends ++ [r]) :
    e'.orderedNumbers = e.orderedNumbers ++
      if r.ok = true ∧ r.options.channel = .reliableOrdered then [r.orderedSequence] else [] := by
  unfold orderedNumbers
  rw [h, List.filter_append, List.map_append]
  congr 1
  by_cases hok : r.ok = true ∧ r.options.channel = .reliableOrdered
  · simp [hok]
  · rw [if_neg hok, List.filter_cons_of_neg (by simpa using hok)]
    rfl

theorem orderedNumbers_send (w : List Bytes) (o : SendOptions) (t : UInt8) (payload : Bytes)
    (now : UInt64) :
    (e.step C w (.send o t payload now)).orderedNumbers = e.orderedNumbers ++
      if (e.party.send C o t payload now).1 = .ok () ∧ o.channel = .reliableOrdered then
        [e.party.session.nextOrderedSequence] else [] := by
  rw [orderedNumbers_snoc (r := ⟨o, t, payload, e.party.session,
    (e.party.send C o t payload now).2.session,
    decide ((e.party.send C o t payload now).1 = .ok ())⟩) rfl]
  simp only [decide_eq_true_eq]
  by_cases hch : o.channel = .reliableOrdered
  · rw [SendRecord.orderedSequence_eq hch]
  · rw [if_neg fun h => hch h.2, if_neg fun h => hch h.2]

/-- A step that wastes no number keeps the numbers consecutive. -/
theorem Consecutive.step (hC : C.IdealAead) (h : e.Consecutive) (w : List Bytes) (op : Op)
    (hk : KeepsOrdered op e) : (e.step C w op).Consecutive := by
  by_cases hsend : ∃ o t payload now, op = .send o t payload now
  swap
  · have hop : ∀ o t payload now, op ≠ .send o t payload now :=
      fun o t payload now heq => hsend ⟨o, t, payload, now, heq⟩
    have hsends : (e.step C w op).sends = e.sends := step_sends_eq w hop
    have hnums := orderedNumbers_of_sends hsends
    refine ⟨by rw [hnums]; exact h.numbers, ?_⟩
    by_cases hd : (e.step C w op).party.Dead
    · exact Or.inl hd
    · have hnum := step_numbers w hop hd
      have hlive : ¬e.party.Dead := fun hdead => hd (dead_step w op hdead)
      have hord : (e.step C w op).party.session.nextOrderedSequence =
          e.party.session.nextOrderedSequence := congrArg (fun n => n.2.2.2.1) hnum
      rw [hnums, hord]
      exact Or.inr (h.next.resolve_left hlive)
  obtain ⟨o, t, payload, now, rfl⟩ := hsend
  have hsnoc := orderedNumbers_send (C := C) (e := e) w o t payload now
  by_cases hlive : e.party.session.state = .established
  swap
  · -- The call is refused and nothing changes.
    have hrc := Party.send_of_not_established (C := C) hlive o t payload now
    have hstep : (e.step C w (.send o t payload now)).party = e.party := by
      simp only [End.step, hrc]
    have hnums : (e.step C w (.send o t payload now)).orderedNumbers = e.orderedNumbers := by
      rw [hsnoc, if_neg (by simp [hrc, fail]), List.append_nil]
    exact ⟨by rw [hnums]; exact h.numbers, by rw [hnums, hstep]; exact h.next⟩
  have hnext : e.party.session.nextOrderedSequence =
      UInt64.ofNat (1 + e.orderedNumbers.length) := by
    refine h.next.resolve_left fun hd => ?_
    rw [hd.2.1] at hlive
    cases hlive
  by_cases hch : o.channel = .reliableOrdered
  swap
  · have hnums : (e.step C w (.send o t payload now)).orderedNumbers = e.orderedNumbers := by
      rw [hsnoc, if_neg (fun hr => hch hr.2), List.append_nil]
    refine ⟨by rw [hnums]; exact h.numbers, Or.inr ?_⟩
    rw [hnums, ← hnext]
    exact Party.send_nextOrderedSequence_of_ne hch t payload now e.party
  have hkeeps := (Party.send_keepsOrdered_iff hC hch t payload now e.party).mpr (hk hch)
  cases hr : (e.party.send C o t payload now).1 with
  | error err =>
    have hnums : (e.step C w (.send o t payload now)).orderedNumbers = e.orderedNumbers := by
      rw [hsnoc, if_neg (by simp [hr]), List.append_nil]
    refine ⟨by rw [hnums]; exact h.numbers, Or.inr ?_⟩
    rw [hnums, ← hnext]
    exact hkeeps err hr
  | ok u =>
    have hearly : ¬e.party.RefusedEarly o payload := by
      intro hearly
      obtain ⟨err, he⟩ := Party.send_of_refusedEarly (C := C) hearly
        (by simp [hch, Channel.isApplication]) t now
      rw [he] at hr
      cases hr
    have hnums : (e.step C w (.send o t payload now)).orderedNumbers =
        e.orderedNumbers ++ [UInt64.ofNat (1 + e.orderedNumbers.length)] := by
      rw [hsnoc, if_pos ⟨hr, hch⟩, ← hnext]
    constructor
    · rw [hnums, List.length_append, List.length_singleton, List.range_succ, List.map_append,
        ← h.numbers]
      rfl
    · right
      have hsucc := (Party.send_ordered hC hch hearly t now).1
      rw [hnext] at hsucc
      rw [hnums, List.length_append, List.length_singleton, Session.ofNat_add_one]
      exact hsucc

theorem Consecutive.run (hC : C.IdealAead) (h : e.Consecutive) (steps : List (List Bytes × Op))
    (hk : Meets C KeepsOrdered steps e) : (e.run C steps).Consecutive := by
  induction steps generalizing e with
  | nil => exact h
  | cons s steps ih => exact ih (h.step hC s.1 s.2 hk.1) hk.2

/-- A failed ordered send keeps the counter exactly under `KeepsOrdered`, and in a run of such
sends the successful ones carry the numbers 1, 2, 3 and so on. -/
theorem ordered_numbers (hC : C.IdealAead) :
    (∀ (p : Party) (o : SendOptions) (t : UInt8) (payload : Bytes) (now : UInt64),
      o.channel = .reliableOrdered →
        ((∀ err, (p.send C o t payload now).1 = .error err →
            (p.send C o t payload now).2.session.nextOrderedSequence =
              p.session.nextOrderedSequence) ↔
          p.KeepsOrdered o t payload)) ∧
    ∀ (e : End) (steps : List (List Bytes × Op)), e.sends = [] →
      e.party.session.nextOrderedSequence = 1 → Meets C KeepsOrdered steps e →
        (e.run C steps).orderedNumbers =
          (List.range (e.run C steps).orderedNumbers.length).map fun i => UInt64.ofNat (1 + i) := by
  refine ⟨fun p o t payload now hch => Party.send_keepsOrdered_iff hC hch t payload now p, ?_⟩
  intro e steps hsends hone hk
  have hnil : e.orderedNumbers = [] := by
    rw [orderedNumbers, hsends]
    rfl
  have hstart : e.Consecutive := by
    refine ⟨by rw [hnil]; rfl, Or.inr ?_⟩
    rw [hnil, hone]
    rfl
  exact (hstart.run hC steps hk).numbers

/-- A client whose packet queue holds one packet. -/
def cramped : End where
  party := Party.crampedClient.mapBudget fun b =>
    { b with congestion := b.congestion.configure {} (ClientConfig.sendBudgetBytesPerSecond {}) }

/-- With a packet still queued the first ordered send fails and takes number 1 with it: the next
one, after a flush, carries number 2. -/
theorem ordered_number_lost :
    let failed := cramped.run .standIn [([], .send { channel := .unreliable } 7 [1] 0),
      ([], .send { channel := .reliableOrdered } 7 [2] 0)]
    let e := failed.run .standIn [([], .flush 0 0 .sent),
      ([], .send { channel := .reliableOrdered } 7 [3] 0)]
    failed.sends.map SendRecord.ok = [true, false] ∧
      failed.party.session.nextOrderedSequence = 2 ∧ e.orderedNumbers = [2] := by
  decide +kernel

/-- With a flush between the calls both find the queue empty. -/
theorem ordered_numbers_flushed :
    (cramped.run .standIn [([], .send { channel := .reliableOrdered } 7 [2] 0),
      ([], .flush 0 0 .sent),
      ([], .send { channel := .reliableOrdered } 7 [3] 0)]).orderedNumbers = [1, 2] :=
  ((ordered_numbers Crypto.standIn_idealAead).2 cramped _ rfl rfl (by decide +kernel)).trans
    (by decide +kernel)

end End

end SecureCnet
