import SecureCnet.Link.Sender
import SecureCnet.Link.Arrival

/-!
# What a receiver has taken in

The record of a receiver is explained by the ledger of its peer: every message
passed on or put together was sent, none twice on a reliable channel, and the
ordered channel has released the messages numbered 1, 2, 3, …. While the connection
lasts, the windows agree with the record.
-/

namespace SecureCnet

namespace Event

/-- The message handed to `deliver_application_message` on a channel. -/
def originOn (ch : Channel) : Event → Option BufferedMessage
  | .passed c _ t d => if c = ch then some (t, d) else none
  | .reassembled m => if m.channel = ch then some (m.type, m.payload) else none
  | _ => none

/-- A message of a reliable channel was handed to `deliver_application_message`. -/
def isOrigin : Event → Bool
  | .passed _ _ _ _ => true
  | .reassembled m => m.channel.isReliable
  | _ => false

end Event

/-- The ledger explains why an event is in the record `es`. -/
def Explained (L : List Entry) (es : List Event) : Event → Prop
  | .accepted ch id => ch.isReliable = true ∧ ∃ x ∈ L, ∃ i < x.sent.length,
      x.record.options.channel = ch ∧ x.record.frameId i = id
  | .passed ch id t d => Event.accepted ch id ∈ es ∧ ∃ x ∈ L, x.record.ok = true ∧
      ¬x.record.Fragmented ∧ x.record.options.channel = ch ∧ x.record.frameId 0 = id ∧
      x.record.type = t ∧ x.record.payload = d
  | .reassembled m => ∃ x ∈ L, x.record.ok = true ∧ x.record.Fragmented ∧ x.record.message = m ∧
      (m.channel.isReliable = true → ∀ j < m.fragmentCount.toNat,
        Event.accepted m.channel (x.record.frameId j) ∈ es)
  | _ => True

/-- The record of a receiver. -/
structure Recorded (L : List Entry) (es : List Event) : Prop where
  explained : ∀ e ∈ es, Explained L es e
  once : (es.filter Event.isOrigin).Nodup
  reliable : es.filterMap (Event.emittedOn .reliable) = es.filterMap (Event.originOn .reliable)
  ordered : ∀ i < (orderedOut es).length, Ledger.orderedSends L (i + 1) = (orderedOut es)[i]?
  /-- A message in one frame is passed on as soon as its id is accepted. -/
  prompt : ∀ x ∈ L, x.sent ≠ [] → ¬x.record.Fragmented →
    Event.accepted x.record.options.channel (x.record.frameId 0) ∈ es →
    Event.passed x.record.options.channel (x.record.frameId 0) x.record.type x.record.payload ∈ es

/-- The ids a channel has accepted, as numbers. -/
def acceptedIds (ch : Channel) (es : List Event) : Set ℕ :=
  {n | ∃ id : UInt64, Event.accepted ch id ∈ es ∧ id.toNat = n}

/-- The windows of a receiver agree with its record. -/
structure Windows (L : List Entry) (s : Session) : Prop where
  received : ∀ ch, ch.isReliable = true →
    (s.reliableFor ch).received.window.Holds (acceptedIds ch s.receipts)
  consistent : s.reassembler.Consistent (Ledger.messages L)
  has : ∀ x ∈ L, x.sent ≠ [] → x.record.Fragmented → ∀ j,
    s.reassembler.Has x.record.message.messageId j → j < x.sent.length ∧
      (x.record.options.channel.isReliable = true →
        Event.accepted x.record.options.channel (x.record.frameId j) ∈ s.receipts)
  ordered : s.ordered.Agrees (Ledger.orderedSends L) (orderedOut s.receipts)

/-- The receiving half of a party, as the ledger of its peer explains it. -/
structure Receiver (L : List Entry) (p : Party) : Prop where
  recorded : Recorded L p.session.receipts
  windows : p.Dead ∨ Windows L p.session

variable {trace es news em : List Event} {L L' : List Entry} {s s' : Session} {x : Entry} {i : ℕ}
  {p q : Party} {id : UInt64} {o : Event}

theorem Explained.mono {e : Event} (h : Explained L es e) {es' : List Event} (hL : L ⊆ L')
    (hes : es ⊆ es') : Explained L' es' e := by
  cases e with
  | accepted ch id =>
    obtain ⟨hch, x, hx, hrest⟩ := h
    exact ⟨hch, x, hL hx, hrest⟩
  | passed ch id t d =>
    obtain ⟨hacc, x, hx, hrest⟩ := h
    exact ⟨hes hacc, x, hL hx, hrest⟩
  | reassembled m =>
    obtain ⟨x, hx, hok, hf, hm, hall⟩ := h
    exact ⟨x, hL hx, hok, hf, hm, fun hch j hj => hes (hall hch j hj)⟩
  | _ => trivial

/-- More is sent. -/
theorem Recorded.append (h : Recorded L es) (hled : Ledger trace (L ++ L'))
    (hb : Ledger.Bounded trace) : Recorded (L ++ L') es where
  explained := fun e he => (h.explained e he).mono (List.subset_append_left _ _) (List.Subset.refl _)
  once := h.once
  reliable := h.reliable
  ordered := by
    intro i hi
    have hf := h.ordered i hi
    rw [List.getElem?_eq_getElem hi] at hf ⊢
    exact Ledger.orderedSends_append hf L'
  prompt := by
    intro y hy hs hin hacc
    -- The id was explained by an entry of `L`, and ids belong to one entry.
    obtain ⟨hrel, x, hx, i, hi, hch, hid⟩ := h.explained _ hacc
    obtain ⟨rfl, -⟩ := hled.frameId_inj hb hy (List.mem_append_left _ hx) hrel hch
      (List.length_pos_of_ne_nil hs) hi hid.symm
    exact h.prompt y hx hs hin hacc

/-- New events that are explained, hand over nothing twice and emit what they hand over. -/
theorem Recorded.extend (h : Recorded L es) (hexp : ∀ e ∈ news, Explained L (es ++ news) e)
    (honce : (news.filter Event.isOrigin).Nodup)
    (hnew : ∀ o ∈ news, o.isOrigin = true → o ∉ es)
    (hrel : news.filterMap (Event.emittedOn .reliable) = news.filterMap (Event.originOn .reliable))
    (hord : ∀ i < (orderedOut es ++ orderedOut news).length,
      Ledger.orderedSends L (i + 1) = (orderedOut es ++ orderedOut news)[i]?)
    (hprompt : ∀ x ∈ L, x.sent ≠ [] → ¬x.record.Fragmented →
      Event.accepted x.record.options.channel (x.record.frameId 0) ∈ news →
      Event.passed x.record.options.channel (x.record.frameId 0) x.record.type x.record.payload ∈
        news) :
    Recorded L (es ++ news) where
  explained := by
    intro e he
    rcases List.mem_append.mp he with he | he
    · exact (h.explained e he).mono (List.Subset.refl _) (List.subset_append_left _ _)
    · exact hexp e he
  once := by
    rw [List.filter_append, List.nodup_append]
    refine ⟨h.once, honce, ?_⟩
    intro a ha b hb heq
    obtain ⟨hmem, hor⟩ := List.mem_filter.mp hb
    exact hnew b hmem hor (heq ▸ (List.mem_filter.mp ha).1)
  reliable := by rw [List.filterMap_append, List.filterMap_append, h.reliable, hrel]
  ordered := by
    rw [orderedOut_append]
    exact hord
  prompt := by
    intro x hx hs hin hacc
    rcases List.mem_append.mp hacc with hold | hnew
    · exact List.mem_append_left _ (h.prompt x hx hs hin hold)
    · exact List.mem_append_right _ (hprompt x hx hs hin hnew)

theorem Windows.append (h : Windows L s) (hled : Ledger trace (L ++ L'))
    (hb : Ledger.Bounded trace) : Windows (L ++ L') s where
  received := h.received
  consistent := h.consistent.mono fun _ _ hm => Ledger.messages_append hm L'
  has := by
    intro y hy hs hf j hj
    obtain ⟨e, hl, -⟩ := id hj
    obtain ⟨m, hm, -⟩ := h.consistent _ _ hl
    obtain ⟨x, hx, hsx, hfx, rfl, hid⟩ := Ledger.mem_of_messages hm
    obtain rfl := hled.messageId_inj hb (List.mem_append_left _ hx) hy hsx hs hfx hf hid
    exact h.has x hx hs hf j hj
  ordered := h.ordered.mono fun _ _ hm => Ledger.orderedSends_append hm L'

theorem Receiver.append (h : Receiver L p) (hled : Ledger trace (L ++ L'))
    (hb : Ledger.Bounded trace) : Receiver (L ++ L') p :=
  ⟨h.recorded.append hled hb, h.windows.imp id fun hw => hw.append hled hb⟩

theorem Windows.sameInbox (h : Windows L s) (hs : s.SameInbox s') : Windows L s' where
  received := by
    intro ch hch
    rw [hs.received, hs.receipts]
    exact h.received ch hch
  consistent := by
    rw [hs.reassembler]
    exact h.consistent
  has := by
    rw [hs.reassembler, hs.receipts]
    exact h.has
  ordered := by
    rw [hs.ordered, hs.receipts]
    exact h.ordered

theorem Receiver.silent (h : Receiver L p) (hs : p.Silent q) : Receiver L q where
  recorded := by
    rw [Session.receipts_eq_inbound, hs.inbound, ← Session.receipts_eq_inbound]
    exact h.recorded
  windows := by
    rcases h.windows with hd | hw
    · exact Or.inl (hs.dead hd)
    · exact hs.inbox.imp id hw.sameInbox

theorem Receiver.expireFragments (h : Receiver L p) (now : UInt64) :
    Receiver L (p.expireFragments now) where
  recorded := h.recorded
  windows := by
    refine h.windows.imp id fun hw => ⟨?_, hw.consistent.expireOld now, ?_, hw.ordered⟩
    · intro ch hch
      exact hw.received ch hch
    · rintro x hx hs hf j ⟨e, hl, hj⟩
      exact hw.has x hx hs hf j ⟨e, FragmentReassembler.lookup_expireOld hl, hj⟩

theorem acceptedIds_append_of_not_mem {ch : Channel} (h : ∀ id, Event.accepted ch id ∉ news) :
    acceptedIds ch (es ++ news) = acceptedIds ch es := by
  ext n
  constructor
  · rintro ⟨id, hid, hn⟩
    exact ⟨id, (List.mem_append.mp hid).resolve_right (h id), hn⟩
  · rintro ⟨id, hid, hn⟩
    exact ⟨id, List.mem_append_left _ hid, hn⟩

/-- Messages are handed over and emitted. -/
theorem Windows.delivers (h : Windows L s) (hd : s.Delivers em s')
    (hrec : em.filter Event.isReceipt = em) (hacc : ∀ ch id, Event.accepted ch id ∉ em)
    (hord : s'.ordered.Agrees (Ledger.orderedSends L) (orderedOut s.receipts ++ orderedOut em)) :
    Windows L s' := by
  have hr : s'.receipts = s.receipts ++ em := by rw [hd.receipts, hrec]
  refine ⟨?_, ?_, ?_, ?_⟩
  · intro ch hch
    rw [hd.received, hr, acceptedIds_append_of_not_mem (hacc ch)]
    exact h.received ch hch
  · rw [hd.reassembler]
    exact h.consistent
  · rw [hd.reassembler, hr]
    intro x hx hs hf j hj
    obtain ⟨hlt, hmem⟩ := h.has x hx hs hf j hj
    exact ⟨hlt, fun hch => List.mem_append_left _ (hmem hch)⟩
  · rw [hr, orderedOut_append]
    exact hord

/-- An id is accepted exactly when it is new and not too far behind. -/
theorem Windows.accept_iff (h : Windows L s) {ch : Channel} (hch : ch.isReliable = true)
    (hid : id ≠ 0) :
    ((s.reliableFor ch).received.accept id).1 = true ↔
      Event.accepted ch id ∉ s.receipts ∧
        ((s.reliableFor ch).received.window.initialized = true →
          (s.reliableFor ch).received.window.latest.toNat < id.toNat + 64) := by
  have hmem : id.toNat ∈ acceptedIds ch s.receipts ↔ Event.accepted ch id ∈ s.receipts := by
    constructor
    · rintro ⟨id', hacc, hn⟩
      rwa [← UInt64.toNat_inj.mp hn]
    · exact fun hacc => ⟨id, hacc, rfl⟩
  rw [ReliableReceiveWindow.accept_of_ne_zero hid,
    ReplayWindow.accept_eq_true_iff (h.received ch hch), hmem]

theorem acceptedIds_concat (ch : Channel) (id : UInt64) (es : List Event) :
    acceptedIds ch (es ++ [.accepted ch id]) = insert id.toNat (acceptedIds ch es) := by
  ext n
  constructor
  · rintro ⟨id', hid, hn⟩
    rcases List.mem_append.mp hid with hold | hnew
    · exact Or.inr ⟨id', hold, hn⟩
    · cases List.mem_singleton.mp hnew
      exact Or.inl hn.symm
  · rintro (rfl | ⟨id', hid, hn⟩)
    · exact ⟨id, List.mem_append_right _ (List.mem_singleton_self _), rfl⟩
    · exact ⟨id', List.mem_append_left _ hid, hn⟩

/-- The id of a reliable frame is shown to its window. -/
theorem Windows.accepting {ch : Channel} (h : Windows L p.session) (hq : Party.Accepting ch id p q)
    (hch : ch.isReliable = true) (hid : id ≠ 0) :
    Windows L q.session where
  received := by
    intro ch' hch'
    rw [hq.received, hq.receipts]
    split_ifs with hsame hfresh hfresh
    · obtain rfl : ch' = ch := by
        cases ch <;> cases ch' <;> simp_all [Channel.isReliable]
      have hold := ReplayWindow.holds_accept (h.received ch' hch') id
      rw [ReliableReceiveWindow.accept_of_ne_zero hid] at hfresh ⊢
      rw [if_pos hfresh] at hold
      rwa [acceptedIds_concat]
    · obtain rfl : ch' = ch := by
        cases ch <;> cases ch' <;> simp_all [Channel.isReliable]
      have hold := ReplayWindow.holds_accept (h.received ch' hch') id
      rw [ReliableReceiveWindow.accept_of_ne_zero hid] at hfresh ⊢
      rw [if_neg hfresh] at hold
      rwa [List.append_nil]
    · rw [acceptedIds_append_of_not_mem]
      · exact h.received ch' hch'
      · intro id' hmem
        cases List.mem_singleton.mp hmem
        exact hsame Iff.rfl
    · rw [List.append_nil]
      exact h.received ch' hch'
  consistent := by
    rw [hq.reassembler]
    exact h.consistent
  has := by
    rw [hq.reassembler, hq.receipts]
    intro x hx hs hf j hj
    obtain ⟨hlt, hmem⟩ := h.has x hx hs hf j hj
    exact ⟨hlt, fun hrel => List.mem_append_left _ (hmem hrel)⟩
  ordered := by
    have hout : orderedOut q.session.receipts = orderedOut p.session.receipts := by
      rw [hq.receipts, orderedOut_append]
      split_ifs <;> simp [orderedOut, Event.emittedOn]
    rw [hq.ordered, hout]
    exact h.ordered

section

variable (hled : Ledger trace L) (hb : Ledger.Bounded trace)

include hled hb

theorem Ledger.orderedSends_lt {n : ℕ} {m : BufferedMessage} (h : orderedSends L n = some m) :
    n < trace.count (.drew .ordered) + 1 := by
  obtain ⟨e, he, hok, hch, -, rfl⟩ := mem_of_orderedSends h
  have hs := (hled.wellFormed e he).sent_of_ok hok
  obtain ⟨hn, hd⟩ := hled.sequence_toNat hb he hs hch
  have hle : e.record.after.drawn .ordered ≤ trace.count (.drew .ordered) :=
    (hled.last e he).sublist.count_le _
  omega

/-- A message of the ledger goes to the application. -/
theorem Windows.hands (h : Windows L s) (hx : x ∈ L) (hok : x.record.ok = true) :
    (s.deliverMessage x.record.message).1 = .ok () ∧
      ∃ em, s.Delivers em (s.deliverMessage x.record.message).2 ∧
        (∀ e ∈ em, ∃ t d, e = .emitted ⟨x.record.options.channel, t, d⟩) ∧
        (x.record.options.channel = .reliable →
          em = [.emitted ⟨.reliable, x.record.type, x.record.payload⟩]) ∧
        (s.deliverMessage x.record.message).2.ordered.Agrees (Ledger.orderedSends L)
          (orderedOut s.receipts ++ orderedOut em) := by
  refine Session.deliverMessage_spec (m := x.record.message)
    (fun n m => hled.orderedSends_lt hb) (hb .ordered) h.ordered ?_
  intro hch
  have hch' : x.record.options.channel = .reliableOrdered := hch
  have hs := (hled.wellFormed x hx).sent_of_ok hok
  have hseq : x.record.message.deliverySequence = x.record.before.nextOrderedSequence := by
    simp [SendRecord.message, Session.fragmentedMessage, hch']
  rw [hseq]
  refine ⟨?_, hled.orderedSends_eq hb hx hok hch'⟩
  intro h0
  have hn := (hled.sequence_toNat hb hx hs hch').1
  rw [h0] at hn
  simp at hn
  omega

end

/-- The acceptance of frame `i`, which only reliable channels record. -/
def Entry.arrival (x : Entry) (i : ℕ) : List Event :=
  if x.record.options.channel.isReliable then
    [.accepted x.record.options.channel (x.record.frameId i)] else []

theorem Entry.mem_arrival {e : Event} : e ∈ x.arrival i ↔
    x.record.options.channel.isReliable = true ∧
      e = .accepted x.record.options.channel (x.record.frameId i) := by
  unfold arrival
  split_ifs with h <;> simp [h]

@[simp] theorem Entry.filter_arrival : (x.arrival i).filter Event.isOrigin = [] := by
  unfold arrival
  split_ifs <;> rfl

@[simp] theorem Entry.emittedOn_arrival (ch : Channel) :
    (x.arrival i).filterMap (Event.emittedOn ch) = [] := by
  unfold arrival
  split_ifs <;> rfl

@[simp] theorem Entry.originOn_arrival (ch : Channel) :
    (x.arrival i).filterMap (Event.originOn ch) = [] := by
  unfold arrival
  split_ifs <;> rfl

theorem Entry.explained_arrival (hx : x ∈ L) (hi : i < x.sent.length) :
    ∀ e ∈ x.arrival i, Explained L es e := by
  intro e he
  obtain ⟨hch, rfl⟩ := mem_arrival.mp he
  exact ⟨hch, x, hx, i, hi, rfl, rfl⟩

/-- Everything emitted is on one channel. -/
def EmitsOn (ch : Channel) (em : List Event) : Prop := ∀ e ∈ em, ∃ t d, e = .emitted ⟨ch, t, d⟩

namespace EmitsOn

variable {ch : Channel}

theorem emittedOn_of_ne (h : EmitsOn ch em) {ch' : Channel} (hne : ch ≠ ch') :
    em.filterMap (Event.emittedOn ch') = [] := by
  rw [List.filterMap_eq_nil_iff]
  intro e he
  obtain ⟨t, d, rfl⟩ := h e he
  exact if_neg hne

theorem originOn_eq (h : EmitsOn ch em) (ch' : Channel) :
    em.filterMap (Event.originOn ch') = [] := by
  rw [List.filterMap_eq_nil_iff]
  intro e he
  obtain ⟨t, d, rfl⟩ := h e he
  rfl

theorem filter_isOrigin (h : EmitsOn ch em) : em.filter Event.isOrigin = [] := by
  rw [List.filter_eq_nil_iff]
  intro e he
  obtain ⟨t, d, rfl⟩ := h e he
  exact Bool.false_ne_true

theorem filter_isReceipt (h : EmitsOn ch em) : em.filter Event.isReceipt = em := by
  rw [List.filter_eq_self]
  intro e he
  obtain ⟨t, d, rfl⟩ := h e he
  rfl

theorem not_accepted (h : EmitsOn ch em) (ch' : Channel) (id : UInt64) :
    Event.accepted ch' id ∉ em := by
  intro hmem
  obtain ⟨t, d, heq⟩ := h _ hmem
  cases heq

theorem explained (h : EmitsOn ch em) : ∀ e ∈ em, Explained L es e := by
  intro e he
  obtain ⟨t, d, rfl⟩ := h e he
  trivial

end EmitsOn

theorem Recorded.emits {ch : Channel} (h : Recorded L es) (hem : EmitsOn ch em)
    (hch : ch.isReliable = false)
    (hord : ∀ i < (orderedOut es ++ orderedOut em).length,
      Ledger.orderedSends L (i + 1) = (orderedOut es ++ orderedOut em)[i]?) :
    Recorded L (es ++ em) := by
  refine h.extend hem.explained ?_ ?_ ?_ hord ?_
  · rw [hem.filter_isOrigin]
    exact List.nodup_nil
  · intro o ho horigin
    obtain ⟨t, d, rfl⟩ := hem o ho
    cases horigin
  · rw [hem.originOn_eq, hem.emittedOn_of_ne]
    rintro rfl
    cases hch
  · intro x _ _ _ hacc
    exact absurd hacc (hem.not_accepted _ _)

/-- The event by which a message is handed over when its frame `i` arrives. -/
inductive Entry.Hands (x : Entry) (i : ℕ) : Event → Prop
  | passed (hin : ¬x.record.Fragmented) (hch : x.record.options.channel.isReliable = true)
      (h0 : i = 0) : Hands x i (.passed x.record.options.channel (x.record.frameId i)
        x.record.type x.record.payload)
  | reassembled (hf : x.record.Fragmented) : Hands x i (.reassembled x.record.message)

theorem Entry.Hands.emittedOn (h : x.Hands i o) (ch : Channel) : o.emittedOn ch = none := by
  cases h <;> rfl

theorem Entry.Hands.originOn (h : x.Hands i o) (ch : Channel) :
    o.originOn ch =
      if x.record.options.channel = ch then some (x.record.type, x.record.payload) else none := by
  cases h <;> rfl

section

variable (hled : Ledger trace L) (hb : Ledger.Bounded trace)

include hled hb

theorem Ledger.eq_of_arrival {y : Entry} (hx : x ∈ L) (hi : i < x.sent.length) (hy : y ∈ L)
    (hs : y.sent ≠ [])
    (hacc : Event.accepted y.record.options.channel (y.record.frameId 0) ∈ x.arrival i) :
    x = y ∧ i = 0 := by
  obtain ⟨hch, heq⟩ := Entry.mem_arrival.mp hacc
  injection heq with hsame hid
  exact hled.frameId_inj hb hx hy hch hsame hi (List.length_pos_of_ne_nil hs) hid.symm

theorem Recorded.arrives (h : Recorded L es) (hx : x ∈ L) (hi : i < x.sent.length)
    (hf : x.record.Fragmented) : Recorded L (es ++ x.arrival i) := by
  have hout : orderedOut (x.arrival i) = [] := Entry.emittedOn_arrival _
  refine h.extend (Entry.explained_arrival hx hi) ?_ ?_ ?_ ?_ ?_
  · rw [Entry.filter_arrival]
    exact List.nodup_nil
  · intro o ho horigin
    obtain ⟨-, rfl⟩ := Entry.mem_arrival.mp ho
    cases horigin
  · rw [Entry.emittedOn_arrival, Entry.originOn_arrival]
  · rw [hout, List.append_nil]
    exact h.ordered
  · intro y hy hs hin hacc
    obtain ⟨rfl, -⟩ := hled.eq_of_arrival hb hx hi hy hs hacc
    exact absurd hf hin

/-- A frame arrives and its message is handed over. -/
theorem Recorded.handed {o : Event} (h : Recorded L es) (hx : x ∈ L) (hi : i < x.sent.length)
    (hok : x.record.ok = true) (ho : x.Hands i o)
    (hnew : x.record.options.channel.isReliable = true →
      Event.accepted x.record.options.channel (x.record.frameId i) ∉ es)
    (hall : x.record.Fragmented → x.record.options.channel.isReliable = true →
      ∀ j < x.record.message.fragmentCount.toNat,
        Event.accepted x.record.options.channel (x.record.frameId j) ∈ es ++ x.arrival i)
    (hem : EmitsOn x.record.options.channel em)
    (hrel : x.record.options.channel = .reliable →
      em = [.emitted ⟨.reliable, x.record.type, x.record.payload⟩])
    (hord : ∀ i < (orderedOut es ++ orderedOut em).length,
      Ledger.orderedSends L (i + 1) = (orderedOut es ++ orderedOut em)[i]?) :
    Recorded L (es ++ (x.arrival i ++ o :: em)) := by
  have hs := (hled.wellFormed x hx).sent_of_ok hok
  have hout : orderedOut (x.arrival i ++ o :: em) = orderedOut em := by
    rw [orderedOut_append]
    unfold orderedOut
    rw [Entry.emittedOn_arrival, List.filterMap_cons, ho.emittedOn, List.nil_append]
  have hfil : (x.arrival i ++ o :: em).filter Event.isOrigin = [o].filter Event.isOrigin := by
    rw [List.filter_append, Entry.filter_arrival, List.filter_cons, hem.filter_isOrigin]
    simp [List.filter_cons]
  refine h.extend ?_ ?_ ?_ ?_ ?_ ?_
  · intro e he
    rcases List.mem_append.mp he with he | he
    · exact Entry.explained_arrival hx hi e he
    rcases List.mem_cons.mp he with rfl | he
    · cases ho with
      | passed hin hch h0 =>
        refine ⟨?_, x, hx, hok, hin, rfl, by rw [h0], rfl, rfl⟩
        refine List.mem_append_right _ (List.mem_append_left _ ?_)
        exact Entry.mem_arrival.mpr ⟨hch, rfl⟩
      | reassembled hf =>
        refine ⟨x, hx, hok, hf, rfl, fun hch j hj => ?_⟩
        rw [← List.append_assoc]
        exact List.mem_append_left _ (hall hf hch j hj)
    · exact hem.explained e he
  · rw [hfil]
    exact (List.nodup_singleton o).filter _
  · intro o' ho' horigin hold
    have hmem : o' ∈ [o].filter Event.isOrigin := by
      rw [← hfil]
      exact List.mem_filter.mpr ⟨ho', horigin⟩
    obtain rfl := List.mem_singleton.mp (List.mem_filter.mp hmem).1
    have hexp := h.explained _ hold
    -- Handing the message over twice would accept one id twice.
    cases ho with
    | passed hin hch h0 => exact hnew hch hexp.1
    | reassembled hf =>
      obtain ⟨y, hy, hoky, hfy, hmsg, hally⟩ := hexp
      have hsy := (hled.wellFormed y hy).sent_of_ok hoky
      obtain rfl := hled.messageId_inj hb hx hy hs hsy hf hfy (by rw [hmsg])
      exact hnew horigin (hally horigin i ((hled.wellFormed x hx).lt_fragmentCount hf hi))
  · rw [List.filterMap_append, List.filterMap_append, Entry.emittedOn_arrival,
      Entry.originOn_arrival, List.filterMap_cons, List.filterMap_cons, ho.emittedOn, ho.originOn,
      hem.originOn_eq]
    split_ifs with hch
    · simp [hrel hch, Event.emittedOn]
    · simp [hem.emittedOn_of_ne hch]
  · rw [hout]
    exact hord
  · intro y hy hsy hin hacc
    have harr : Event.accepted y.record.options.channel (y.record.frameId 0) ∈ x.arrival i := by
      rcases List.mem_append.mp hacc with hacc | hacc
      · exact hacc
      rcases List.mem_cons.mp hacc with heq | hacc
      · rw [← heq] at ho
        cases ho
      · exact absurd hacc (hem.not_accepted _ _)
    obtain ⟨rfl, rfl⟩ := hled.eq_of_arrival hb hx hi hy hsy harr
    cases ho with
    | passed hin' hch h0 => simp
    | reassembled hf => exact absurd hf hin

end

theorem Windows.log (h : Windows L s) (ho : x.Hands i o) : Windows L (s.log o) := by
  refine h.delivers (Session.delivers_log o s) ?_ ?_ ?_
  · cases ho <;> rfl
  · intro ch id hmem
    rw [← List.mem_singleton.mp hmem] at ho
    cases ho
  · have hout : orderedOut [o] = [] := by
      rw [orderedOut, List.filterMap_cons, ho.emittedOn]
      rfl
    rw [hout, List.append_nil]
    exact h.ordered

theorem Receiver.orViolation {C : Crypto} {r : Result Unit × Party} (h : Receiver L r.2)
    (now : UInt64) (reason : CloseReason) : Receiver L (Party.orViolation C now reason r) := by
  obtain ⟨rc, q⟩ := r
  cases rc with
  | ok u => exact h
  | error e => exact h.silent (Party.violation_silent now reason q)

theorem Receiver.refused {ch : Channel} (hrec : Recorded L p.session.receipts)
    (hw : Windows L p.session) (hq : Party.Accepting ch id p q) (hch : ch.isReliable = true)
    (hid : id ≠ 0) (hold : ¬((p.session.reliableFor ch).received.accept id).1 = true) :
    Receiver L q := by
  refine ⟨?_, Or.inr (hw.accepting hq hch hid)⟩
  rw [hq.receipts, if_neg hold, List.append_nil]
  exact hrec

theorem Windows.setReassembler {r : FragmentReassembler} (h : Windows L s)
    (hc : r.Consistent (Ledger.messages L))
    (hhas : ∀ y ∈ L, y.sent ≠ [] → y.record.Fragmented → ∀ j,
      r.Has y.record.message.messageId j → j < y.sent.length ∧
        (y.record.options.channel.isReliable = true →
          Event.accepted y.record.options.channel (y.record.frameId j) ∈ s.receipts)) :
    Windows L { s with reassembler := r } :=
  ⟨fun ch hch => h.received ch hch, hc, hhas, h.ordered⟩

section

variable (hled : Ledger trace L) (hb : Ledger.Bounded trace)

include hled hb

/-- A frame has arrived and its message goes to the application. -/
theorem Windows.handed {o : Event} (h : Windows L s) (hrec : Recorded L es)
    (hes : s.receipts = es ++ x.arrival i) (hx : x ∈ L) (hi : i < x.sent.length)
    (hok : x.record.ok = true) (ho : x.Hands i o)
    (hnew : x.record.options.channel.isReliable = true →
      Event.accepted x.record.options.channel (x.record.frameId i) ∉ es)
    (hall : x.record.Fragmented → x.record.options.channel.isReliable = true →
      ∀ j < x.record.message.fragmentCount.toNat,
        Event.accepted x.record.options.channel (x.record.frameId j) ∈ s.receipts) :
    ((s.log o).deliverMessage x.record.message).1 = .ok () ∧
      Recorded L ((s.log o).deliverMessage x.record.message).2.receipts ∧
      Windows L ((s.log o).deliverMessage x.record.message).2 ∧
      ((s.log o).deliverMessage x.record.message).2.reassembler = s.reassembler ∧
      s.receipts <+: ((s.log o).deliverMessage x.record.message).2.receipts := by
  have hlog := h.log ho
  obtain ⟨hrc, em, hdel, hem, hrel, hagree⟩ := hlog.hands hled hb hx hok
  have hreceipt : o.isReceipt = true := by cases ho <;> rfl
  have hrlog : (s.log o).receipts = es ++ (x.arrival i ++ [o]) := by
    rw [Session.receipts_log, if_pos hreceipt, hes, List.append_assoc]
  have hr : ((s.log o).deliverMessage x.record.message).2.receipts =
      es ++ (x.arrival i ++ o :: em) := by
    rw [hdel.receipts, EmitsOn.filter_isReceipt hem, hrlog]
    simp
  have hout : orderedOut (s.log o).receipts = orderedOut es := by
    rw [hrlog, orderedOut_append, orderedOut_append]
    unfold orderedOut
    rw [Entry.emittedOn_arrival, List.filterMap_cons, ho.emittedOn]
    simp
  have hord := hagree.released
  rw [hout] at hord
  rw [hes] at hall
  refine ⟨hrc, ?_, ?_, hdel.reassembler, ?_⟩
  · rw [hr]
    exact hrec.handed hled hb hx hi hok ho hnew hall hem hrel hord
  · exact hlog.delivers hdel (EmitsOn.filter_isReceipt hem) (EmitsOn.not_accepted hem) hagree
  · rw [hr, hes, ← List.append_assoc]
    exact List.prefix_append _ _

/-- A piece of a message has arrived and goes to the reassembler. -/
theorem Receiver.piece {q : Party} (hw : Windows L q.session) (hrec : Recorded L es)
    (hes : q.session.receipts = es ++ x.arrival i) (hx : x ∈ L) (hi : i < x.sent.length)
    (hf : x.record.Fragmented)
    (hnew : x.record.options.channel.isReliable = true →
      Event.accepted x.record.options.channel (x.record.frameId i) ∉ es) (now : UInt64) :
    Receiver L (q.handleFragmentPayload now (x.record.message.piece (UInt16.ofNat i))).2 := by
  have hwf := hled.wellFormed x hx
  have hs : x.sent ≠ [] := List.ne_nil_of_length_pos (Nat.zero_lt_of_lt hi)
  have hm := hwf.sendable hs hf
  have hA := hled.messages_eq hb hx hs hf
  have hcount := hwf.lt_fragmentCount hf hi
  have hnat : (UInt16.ofNat i).toNat = i := by
    rw [UInt16.toNat_ofNat', Nat.mod_eq_of_lt]
    exact hcount.trans (UInt16.toNat_lt _)
  have hlt : UInt16.ofNat i < x.record.message.fragmentCount := by
    rw [UInt16.lt_iff_toNat_lt, hnat]
    exact hcount
  have hkept : Recorded L q.session.receipts := by
    rw [hes]
    exact hrec.arrives hled hb hx hi hf
  -- A flag set now belongs to this piece, or was set before.
  have hset : ∀ y ∈ L, y.sent ≠ [] → y.record.Fragmented → ∀ j,
      (q.session.reassembler.Has y.record.message.messageId j ∨
        y.record.message.messageId = x.record.message.messageId ∧ j = i) →
      j < y.sent.length ∧ (y.record.options.channel.isReliable = true →
        Event.accepted y.record.options.channel (y.record.frameId j) ∈ q.session.receipts) := by
    rintro y hy hsy hfy j (hold | ⟨hid, rfl⟩)
    · exact hw.has y hy hsy hfy j hold
    · obtain rfl := hled.messageId_inj hb hy hx hsy hs hfy hf hid
      refine ⟨hi, fun hch => ?_⟩
      rw [hes]
      exact List.mem_append_right _ (Entry.mem_arrival.mpr ⟨hch, rfl⟩)
  -- With all pieces there the message was sent as a whole, and its delivery succeeds.
  have hgive : (∀ j < x.record.message.fragmentCount.toNat, j ≠ i →
        q.session.reassembler.Has x.record.message.messageId j) →
      ((q.session.log (.reassembled x.record.message)).deliverMessage x.record.message).1 =
          .ok () ∧
        Recorded L ((q.session.log (.reassembled x.record.message)).deliverMessage
          x.record.message).2.receipts ∧
        Windows L ((q.session.log (.reassembled x.record.message)).deliverMessage
          x.record.message).2 ∧
        ((q.session.log (.reassembled x.record.message)).deliverMessage
          x.record.message).2.reassembler = q.session.reassembler ∧
        q.session.receipts <+: ((q.session.log (.reassembled x.record.message)).deliverMessage
          x.record.message).2.receipts := by
    intro hrest
    have hpieces : ∀ j < x.record.message.fragmentCount.toNat, j < x.sent.length ∧
        (x.record.options.channel.isReliable = true →
          Event.accepted x.record.options.channel (x.record.frameId j) ∈ q.session.receipts) := by
      intro j hj
      refine hset x hx hs hf j ?_
      by_cases hji : j = i
      · exact Or.inr ⟨rfl, hji⟩
      · exact Or.inl (hrest j hj hji)
    exact hw.handed hled hb hrec hes hx hi (hwf.ok_of_all hs hf fun j hj => (hpieces j hj).1)
      (.reassembled hf) hnew fun _ hch j hj => (hpieces j hj).2 hch
  by_cases hadm : q.Admits x.record.message
  swap
  · rw [Party.handleFragmentPayload_of_not_admits hw.consistent hA hm hlt now hadm]
    exact ⟨hkept, Or.inr hw⟩
  obtain ⟨rc, ra, s, hpiece, hcons, -, heq, -⟩ :=
    Party.handleFragmentPayload_of_admits hw.consistent hA hm hlt now hadm
  rw [heq]
  rw [hnat] at hpiece
  cases hpiece with
  | refused e hcode hwhy => exact absurd hadm.1 hwhy
  | duplicate r' hold hhas =>
    refine ⟨hkept, Or.inr (hw.setReassembler hcons ?_)⟩
    intro y hy hsy hfy j hj
    exact hw.has y hy hsy hfy j ((hhas _ _).mp hj)
  | stored r' hfresh hmissing hhas =>
    refine ⟨hkept, Or.inr (hw.setReassembler hcons ?_)⟩
    intro y hy hsy hfy j hj
    exact hset y hy hsy hfy j ((hhas _ _).mp hj)
  | completed r' s' hfresh hrest hdone hhas =>
    obtain ⟨-, hrec', hw', -, hpre⟩ := hgive hrest
    obtain rfl : ((q.session.log (.reassembled x.record.message)).deliverMessage
        x.record.message).2 = s := congrArg Prod.snd hdone
    refine ⟨hrec', Or.inr (hw'.setReassembler hcons ?_)⟩
    intro y hy hsy hfy j hj
    obtain ⟨hlen, hmem⟩ := hw.has y hy hsy hfy j ((hhas _ _).mp hj).2
    exact ⟨hlen, fun hch => hpre.subset (hmem hch)⟩
  | failed e r' s' hfresh hrest hdone hhas =>
    have hrc := (hgive hrest).1
    rw [show (q.session.log (.reassembled x.record.message)).deliverMessage x.record.message =
      (.error e, s) from hdone] at hrc
    cases hrc

theorem Windows.arrival {p q : Party} (h : Windows L p.session)
    (hq : Party.Accepting x.record.options.channel (x.record.frameId i) p q) (hx : x ∈ L)
    (hi : i < x.sent.length) (hch : x.record.options.channel.isReliable = true)
    (hfresh : ((p.session.reliableFor x.record.options.channel).received.accept
      (x.record.frameId i)).1 = true) :
    q.session.receipts = p.session.receipts ++ x.arrival i ∧
      Event.accepted x.record.options.channel (x.record.frameId i) ∉ p.session.receipts := by
  refine ⟨?_, ((h.accept_iff hch (hled.frameId_ne_zero hb hx hch hi)).mp hfresh).1⟩
  rw [hq.receipts, if_pos hfresh, Entry.arrival, if_pos hch]

/-- A frame of the ledger arrives. -/
theorem Receiver.dispatch {C : Crypto} {p : Party} {msg : MsgView}
    (hrec : Recorded L p.session.receipts) (hw : Windows L p.session) (hx : x ∈ L)
    (hmsg : x.Sent i msg) (ht : x.record.type ≠ ControlType.fragment.code) (now : UInt64) :
    Receiver L (p.dispatchMessageFrame C now msg) := by
  have hwf := hled.wellFormed x hx
  have hi := hmsg.lt
  have hs := hmsg.ne_nil
  have hid : x.record.options.channel.isReliable = true → x.record.frameId i ≠ 0 :=
    fun hch => hled.frameId_ne_zero hb hx hch hi
  have hacc := Party.accepting_spec (C := C) x.record.options.channel (x.record.frameId i) p
  cases hmsg.isFrame hwf with
  | inline hin =>
    have hok := hwf.ok_of_inline hs hin
    have hdisp := Party.dispatch_inline (C := C) (hwf.checked hs) (not_lt.mp hin) ht now
      (by rw [← SendRecord.frameId_zero]; exact hid) p
    rw [← SendRecord.frameId_zero] at hdisp
    rw [hdisp]
    split_ifs with hch hfresh
    · obtain ⟨hes, hnew⟩ := hw.arrival hled hb hacc hx hi hch hfresh
      obtain ⟨hrc, hrec', hw', -⟩ := (hw.accepting hacc hch (hid hch)).handed hled hb hrec hes hx hi
        hok (.passed hin hch rfl) (fun _ => hnew) (fun hf => absurd hf hin)
      rw [Party.handOver_eq (by exact hrc)]
      exact ⟨hrec', Or.inr hw'⟩
    · exact Receiver.refused hrec hw hacc hch (hid hch) hfresh
    · obtain ⟨hrc, em, hdel, hem, -, hagree⟩ := hw.hands hled hb hx hok
      rw [Party.handOver_eq (by exact hrc)]
      have hr := hdel.receipts
      rw [EmitsOn.filter_isReceipt hem] at hr
      refine ⟨?_, Or.inr (hw.delivers hdel (EmitsOn.filter_isReceipt hem)
        (EmitsOn.not_accepted hem) hagree)⟩
      change Recorded L (p.session.deliverMessage x.record.message).2.receipts
      rw [hr]
      exact hrec.emits hem (by simpa using hch) hagree.released
  | piece _ hf hlt =>
    have hm := hwf.sendable hs hf
    have hlt' : UInt16.ofNat i < x.record.message.fragmentCount := by
      rw [UInt16.lt_iff_toNat_lt, UInt16.toNat_ofNat', Nat.mod_eq_of_lt]
      · exact hlt
      · exact hlt.trans (UInt16.toNat_lt _)
    rw [Party.dispatch_piece hm hlt' now hid]
    split_ifs with hch hfresh
    · obtain ⟨hes, hnew⟩ := hw.arrival hled hb hacc hx hi hch hfresh
      refine Receiver.orViolation ?_ now _
      exact Receiver.piece hled hb (hw.accepting hacc hch (hid hch)) hrec hes hx hi hf
        (fun _ => hnew) now
    · exact Receiver.refused hrec hw hacc hch (hid hch) hfresh
    · refine Receiver.orViolation ?_ now _
      refine Receiver.piece hled hb hw hrec ?_ hx hi hf (fun h => absurd h hch) now
      rw [Entry.arrival, if_neg hch, List.append_nil]

end

end SecureCnet
