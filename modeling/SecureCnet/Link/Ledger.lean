import SecureCnet.Link.Model

/-!
# The ledger of a sender

An entry is a call of `send` with the frames it got into the queue. Every number on
a frame was drawn from a counter, and the history of the session counts the draws:
as long as no counter wraps around, entries have disjoint numbers.
-/

namespace SecureCnet

namespace Session

/-- Every counter stands one past the numbers it has given out. -/
structure Numbered (s : Session) : Prop where
  message : ∀ ch, ch.isReliable = true →
    (s.reliableFor ch).nextMessageId = UInt64.ofNat (1 + s.drawn (.message ch))
  fragment : s.nextFragmentMessageId = UInt64.ofNat (1 + s.drawn .fragment)
  ordered : s.nextOrderedSequence = UInt64.ofNat (1 + s.drawn .ordered)

/-- Message counters and the record of their draws agree in two sessions. -/
structure SameCounters (s s' : Session) : Prop where
  numbers : s'.numbers = s.numbers
  drawn : ∀ k, k ≠ .packet → s'.drawn k = s.drawn k

variable {s s' : Session}

theorem nextMessageId_eq_numbers {ch : Channel} (s : Session) :
    (s.reliableFor ch).nextMessageId =
      if ch = .reliableOrdered then s.numbers.2.1 else s.numbers.1 := by
  unfold reliableFor
  split_ifs <;> rfl

theorem SameCounters.numbered (h : s.SameCounters s') (hn : s.Numbered) : s'.Numbered where
  message := by
    intro ch hch
    rw [nextMessageId_eq_numbers, h.numbers, ← nextMessageId_eq_numbers, hn.message ch hch,
      h.drawn _ (by simp)]
  fragment := by
    have : s'.nextFragmentMessageId = s.nextFragmentMessageId :=
      congrArg (fun n => n.2.2.1) h.numbers
    rw [this, hn.fragment, h.drawn _ (by simp)]
  ordered := by
    have : s'.nextOrderedSequence = s.nextOrderedSequence :=
      congrArg (fun n => n.2.2.2.1) h.numbers
    rw [this, hn.ordered, h.drawn _ (by simp)]

theorem drawn_append {es : List Event} (h : s'.trace = s.trace ++ es) (k : Counter) :
    s'.drawn k = s.drawn k + es.count (.drew k) := by
  rw [drawn, drawn, h, List.count_append]

theorem drawn_of_not_mem {es : List Event} {k : Counter} (h : s'.trace = s.trace ++ es)
    (hk : Event.drew k ∉ es) : s'.drawn k = s.drawn k := by
  rw [drawn_append h, List.count_eq_zero.mpr hk, Nat.add_zero]

theorem ofNat_add_one (n : ℕ) : UInt64.ofNat (1 + (n + 1)) = UInt64.ofNat (1 + n) + 1 := by
  rw [← Nat.add_assoc, UInt64.ofNat_add]
  rfl

/-- One counter is drawn from. -/
theorem Numbered.draw {k : Counter} (h : s.Numbered) (ht : s'.trace = s.trace ++ [.drew k])
    (hm : ∀ ch, ch.isReliable = true → (s'.reliableFor ch).nextMessageId =
      if k = .message ch then (s.reliableFor ch).nextMessageId + 1
      else (s.reliableFor ch).nextMessageId)
    (hf : s'.nextFragmentMessageId =
      if k = .fragment then s.nextFragmentMessageId + 1 else s.nextFragmentMessageId)
    (ho : s'.nextOrderedSequence =
      if k = .ordered then s.nextOrderedSequence + 1 else s.nextOrderedSequence) :
    s'.Numbered := by
  have hd : ∀ k', s'.drawn k' = if k = k' then s.drawn k' + 1 else s.drawn k' := by
    intro k'
    rw [drawn_append ht]
    split_ifs with hk
    · simp [hk]
    · simp [hk]
  refine ⟨?_, ?_, ?_⟩
  · intro ch hch
    rw [hm ch hch, hd, h.message ch hch]
    split_ifs
    · exact (ofNat_add_one _).symm
    · rfl
  · rw [hf, hd, h.fragment]
    split_ifs
    · exact (ofNat_add_one _).symm
    · rfl
  · rw [ho, hd, h.ordered]
    split_ifs
    · exact (ofNat_add_one _).symm
    · rfl

end Session

namespace Party

variable {C : Crypto} {priority : SendPriority} {p q : Party} {msgs : List MsgView} {ch : Channel}

theorem UpToNumber.sameCounters {E : Event → Prop} (h : p.UpToNumber E q)
    (hE : ∀ k, E (.drew k) → k = .packet) : p.session.SameCounters q.session := by
  obtain ⟨n, es, net, rfl, -, hes⟩ := h
  refine ⟨rfl, ?_⟩
  intro k hk
  exact Session.drawn_of_not_mem rfl fun hmem => hk (hE k (hes _ hmem))

theorem PacketEvent.counter {k : Counter} (h : PacketEvent (.drew k)) : k = .packet := by
  rcases h with h | ⟨key, nonce, h⟩
  · cases h
    rfl
  · cases h

theorem Queued.sameCounters {kind : PacketKind} {payload : Bytes} {rc : Result Unit}
    (h : Queued C p kind payload priority rc q) : p.session.SameCounters q.session :=
  h.upToNumber.sameCounters fun _ => PacketEvent.counter

theorem enqueued_numbered {rs : ReliableSession} (hch : ch.isReliable = true)
    (h : p.session.Numbered) (hrs : rs.nextMessageId = (p.session.reliableFor ch).nextMessageId + 1)
    :
    (p.enqueued ch rs).session.Numbered := by
  refine h.draw (k := .message ch) (enqueued_trace ch rs p) ?_ (by simp [enqueued, log])
    (by simp [enqueued, log])
  intro ch' hch'
  have hfor : (p.enqueued ch rs).session.reliableFor ch' =
      (p.session.setReliable ch rs).reliableFor ch' := Session.reliableFor_log _ _ _
  rw [hfor, Session.reliableFor_setReliable]
  by_cases hsame : ch = ch'
  · subst hsame
    simp [hrs]
  · have hdiff : ¬(ch' = .reliableOrdered ↔ ch = .reliableOrdered) := by
      cases ch <;> cases ch' <;> simp_all [Channel.isReliable]
    simp [hdiff, hsame]

theorem setReliable_sameCounters {f : Session → ReliableSession}
    (h : (f p.session).nextMessageId = (p.session.reliableFor ch).nextMessageId) :
    p.session.SameCounters (p.mapSession fun s => s.setReliable ch (f s)).session := by
  refine ⟨?_, fun k _ => by simp [Session.drawn]⟩
  rw [mapSession_session, Session.setReliable_eq]
  unfold Session.reliableFor at h
  unfold Session.numbers
  dsimp only
  split_ifs at h ⊢ <;> simp [h]

/-- A send keeps the counters one past their draws. -/
theorem Sending.numbered (h : Sending C priority p msgs q) (hp : p.session.Numbered) :
    q.session.Numbered := by
  induction h with
  | start => exact hp
  | drawFragmentId _ ih =>
    refine ih.draw (k := .fragment) rfl ?_ (by simp [Session.drawFragmentId])
      (by simp [Session.drawFragmentId])
    intro ch _
    exact congrArg _ (Session.reliableFor_congr rfl rfl)
  | drawOrdered _ ih =>
    refine ih.draw (k := .ordered) rfl ?_ (by simp [Session.drawOrdered])
      (by simp [Session.drawOrdered])
    intro ch _
    exact congrArg _ (Session.reliableFor_congr rfl rfl)
  | drawSequenced _ ih =>
    refine ih.draw (k := .sequenced) rfl ?_ (by simp [Session.drawSequenced])
      (by simp [Session.drawSequenced])
    intro ch _
    exact congrArg _ (Session.reliableFor_congr rfl rfl)
  | burned _ ch hch ih => exact enqueued_numbered hch ih rfl
  | lost _ payload e hq ih => exact hq.sameCounters.numbered ih
  | frame _ msg hch hq ih => exact hq.sameCounters.numbered ih
  | withdrawn _ ch m rs e now henq hq ih =>
    have h1 := hq.sameCounters.numbered (enqueued_numbered henq.channel ih henq.next)
    exact (setReliable_sameCounters
      (f := fun s => ((s.reliableFor ch).acknowledge m.messageId now).2)
      (ReliableSession.sameNumbers_acknowledge _ _ _).nextMessageId).numbered h1
  | reliable _ ch m rs now henq hq ih =>
    have h1 := hq.sameCounters.numbered (enqueued_numbered henq.channel ih henq.next)
    exact (setReliable_sameCounters
      (f := fun s => ((s.reliableFor ch).noteSent m.messageId now).2)
      (ReliableSession.sameNumbers_noteSent _ _ _).nextMessageId).numbered h1

theorem drawn_enqueued (ch : Channel) (rs : ReliableSession) (k : Counter) (p : Party) :
    (p.enqueued ch rs).session.drawn k =
      p.session.drawn k + if k = .message ch then 1 else 0 := by
  rw [Session.drawn_append (enqueued_trace ch rs p)]
  by_cases hk : k = .message ch
  · simp [hk]
  · have : Counter.message ch ≠ k := Ne.symm hk
    simp [hk, this]

/-- Every reliable frame was given an id of its own. -/
theorem Sending.count_le (h : Sending C priority p msgs q) (hch : ch.isReliable = true) :
    p.session.drawn (.message ch) + msgs.countP (·.channel = ch) ≤
      q.session.drawn (.message ch) := by
  induction h with
  | start => simp
  | drawFragmentId _ ih | drawOrdered _ ih | drawSequenced _ ih =>
    refine ih.trans ?_
    exact (List.prefix_append _ _).sublist.count_le _
  | burned _ ch' hch' ih =>
    rw [drawn_enqueued]
    omega
  | lost _ payload e hq ih =>
    rw [hq.sameCounters.drawn _ (by simp)]
    exact ih
  | frame _ msg hmsg hq ih =>
    have hne : msg.channel ≠ ch := by
      intro heq
      rw [heq, hch] at hmsg
      cases hmsg
    rw [hq.sameCounters.drawn _ (by simp), List.countP_append]
    simpa [hne] using ih
  | withdrawn _ ch' m rs e now henq hq ih =>
    have hd := hq.sameCounters.drawn (.message ch) (by simp)
    rw [drawn_enqueued] at hd
    rw [(setReliable_sameCounters
      (f := fun s => ((s.reliableFor ch').acknowledge m.messageId now).2)
      (ReliableSession.sameNumbers_acknowledge _ _ _).nextMessageId).drawn _ (by simp), hd]
    omega
  | reliable _ ch' m rs now henq hq ih =>
    have hd := hq.sameCounters.drawn (.message ch) (by simp)
    rw [drawn_enqueued] at hd
    rw [(setReliable_sameCounters
      (f := fun s => ((s.reliableFor ch').noteSent m.messageId now).2)
      (ReliableSession.sameNumbers_noteSent _ _ _).nextMessageId).drawn _ (by simp), hd,
      List.countP_append]
    by_cases hsame : ch = ch'
    · subst hsame
      simp
      omega
    · have : ch' ≠ ch := Ne.symm hsame
      simp [hsame, this]
      exact ih

end Party

namespace SendRecord

/-- The frames the message consists of. -/
def frames (r : SendRecord) : List MsgView :=
  sendFrames r.options.channel r.type r.payload r.before

/-- The message is too large for one frame. -/
def Fragmented (r : SendRecord) : Prop :=
  r.options.channel.maxInlinePayloadSize < r.payload.length

instance (r : SendRecord) : Decidable r.Fragmented := inferInstanceAs (Decidable (_ < _))

/-- The message its pieces belong to. -/
def message (r : SendRecord) : FragmentedMessage :=
  r.before.fragmentedMessage r.options.channel r.type r.payload

/-- The reliable message id of frame `i`. -/
def frameId (r : SendRecord) (i : ℕ) : UInt64 :=
  (r.before.reliableFor r.options.channel).nextMessageId + UInt64.ofNat i

theorem frameId_zero (r : SendRecord) :
    r.frameId 0 = (r.before.reliableFor r.options.channel).nextMessageId := UInt64.add_zero _

/-- What frame `i` of a message is. -/
inductive IsFrame (r : SendRecord) : ℕ → MsgView → Prop
  | inline (h : ¬r.Fragmented) :
      IsFrame r 0 (inlineFrame r.options.channel r.type r.payload r.before)
  | piece (i : ℕ) (h : r.Fragmented) (hi : i < r.message.fragmentCount.toNat) :
      IsFrame r i (pieceFrame r.options.channel r.message (r.frameId i) (UInt16.ofNat i))

theorem pieceFrames_getElem? (ch : Channel) (m : FragmentedMessage) (id : UInt64)
    (is : List UInt16) (i : ℕ) :
    (pieceFrames ch m id is)[i]? = is[i]?.map (pieceFrame ch m (id + UInt64.ofNat i)) := by
  induction is generalizing id i with
  | nil => simp [pieceFrames]
  | cons x xs ih =>
    cases i with
    | zero => simp [pieceFrames]
    | succ i =>
      have hid : id + 1 + UInt64.ofNat i = id + UInt64.ofNat (i + 1) := by
        rw [UInt64.ofNat_add, UInt64.add_assoc, UInt64.add_comm 1]
        rfl
      simp [pieceFrames, ih, hid]

theorem isFrame_of_getElem? {r : SendRecord} {i : ℕ} {msg : MsgView}
    (h : r.frames[i]? = some msg) : r.IsFrame i msg := by
  unfold frames sendFrames at h
  by_cases hfrag : r.options.channel.maxInlinePayloadSize < r.payload.length
  · rw [if_pos hfrag, pieceFrames_getElem?] at h
    obtain ⟨x, hx, rfl⟩ := Option.map_eq_some_iff.mp h
    unfold Party.pieceIndices at hx
    rw [List.getElem?_map, Option.map_eq_some_iff] at hx
    obtain ⟨j, hj, rfl⟩ := hx
    obtain ⟨hlt, rfl⟩ := List.getElem?_eq_some_iff.mp hj
    rw [List.length_range] at hlt
    rw [List.getElem_range]
    exact .piece i hfrag hlt
  · rw [if_neg hfrag] at h
    cases i with
    | zero =>
      cases h
      exact .inline hfrag
    | succ i => cases h

theorem length_frames {r : SendRecord} (h : r.Fragmented) :
    r.frames.length = r.message.fragmentCount.toNat := by
  have hlen : ∀ (ch : Channel) (m : FragmentedMessage) (is : List UInt16) (id : UInt64),
      (pieceFrames ch m id is).length = is.length := by
    intro ch m is
    induction is with
    | nil => exact fun _ => rfl
    | cons i is ih => exact fun id => congrArg (· + 1) (ih (id + 1))
  unfold frames sendFrames
  rw [if_pos (by exact h), hlen, Party.pieceIndices, List.length_map, List.length_range]
  rfl

end SendRecord

/-- A call of `send` with the frames it queued. -/
structure Entry where
  record : SendRecord
  sent : List MsgView

namespace Entry

/-- What is known of an entry. -/
structure WellFormed (e : Entry) : Prop where
  sent_prefix : e.sent <+: e.record.frames
  trace_prefix : e.record.before.trace <+: e.record.after.trace
  sent_of_ok : e.record.ok = true → e.sent ≠ []
  checked : e.sent ≠ [] → Party.SendOk e.record.options e.record.payload e.record.before
  draws : e.sent ≠ [] →
    Party.DrawsNumbers e.record.options e.record.payload e.record.before e.record.after
  ok_iff : e.sent ≠ [] → (e.record.ok = true ↔ e.sent = e.record.frames)
  numbered : e.sent ≠ [] → e.record.before.Numbered
  count_le : ∀ ch, ch.isReliable = true →
    e.record.before.drawn (.message ch) + e.sent.countP (·.channel = ch) ≤
      e.record.after.drawn (.message ch)

/-- Frame `i` of the entry was queued, and is `msg`. -/
def Sent (e : Entry) (i : ℕ) (msg : MsgView) : Prop := e.sent[i]? = some msg

variable {e : Entry} {i : ℕ} {msg : MsgView}

theorem Sent.lt (h : e.Sent i msg) : i < e.sent.length := (List.getElem?_eq_some_iff.mp h).1

theorem Sent.ne_nil (h : e.Sent i msg) : e.sent ≠ [] := by
  intro hnil
  rw [Sent, hnil] at h
  cases h

theorem Sent.isFrame (h : e.Sent i msg) (hw : e.WellFormed) : e.record.IsFrame i msg := by
  obtain ⟨rest, hrest⟩ := hw.sent_prefix
  apply SendRecord.isFrame_of_getElem?
  rw [← hrest, List.getElem?_append_left h.lt]
  exact h

theorem WellFormed.channel_ne (hw : e.WellFormed) (h : e.sent ≠ []) :
    e.record.options.channel ≠ .control :=
  (hw.checked h).application

theorem WellFormed.sendable (hw : e.WellFormed) (h : e.sent ≠ []) (hf : e.record.Fragmented) :
    e.record.message.Sendable where
  messageId_ne := (hw.checked h).fragmented hf
  application := hw.channel_ne h
  nonempty := Nat.zero_lt_of_lt hf
  short := (hw.checked h).short.trans_lt (by decide)

theorem WellFormed.lt_fragmentCount (hw : e.WellFormed) (hf : e.record.Fragmented)
    (hi : i < e.sent.length) : i < e.record.message.fragmentCount.toNat := by
  rw [← SendRecord.length_frames hf]
  exact hi.trans_le hw.sent_prefix.length_le

theorem length_frames_of_inline {r : SendRecord} (hin : ¬r.Fragmented) : r.frames.length = 1 := by
  unfold SendRecord.frames sendFrames
  rw [if_neg (by exact hin)]
  rfl

theorem WellFormed.ok_of_inline (hw : e.WellFormed) (hs : e.sent ≠ [])
    (hin : ¬e.record.Fragmented) : e.record.ok = true := by
  rw [hw.ok_iff hs]
  refine hw.sent_prefix.eq_of_length_le ?_
  rw [length_frames_of_inline hin]
  exact List.length_pos_of_ne_nil hs

theorem WellFormed.eq_zero_of_inline (hw : e.WellFormed) (hin : ¬e.record.Fragmented)
    (hi : i < e.sent.length) : i = 0 := by
  have hle := hw.sent_prefix.length_le
  rw [length_frames_of_inline hin] at hle
  omega

theorem WellFormed.ok_of_all (hw : e.WellFormed) (hs : e.sent ≠ []) (hf : e.record.Fragmented)
    (hall : ∀ j < e.record.message.fragmentCount.toNat, j < e.sent.length) :
    e.record.ok = true := by
  rw [hw.ok_iff hs]
  refine hw.sent_prefix.eq_of_length_le ?_
  rw [SendRecord.length_frames hf]
  by_contra hlt
  exact (hall _ (not_le.mp hlt)).ne rfl

theorem channel_eq_of_isFrame {r : SendRecord} (h : r.IsFrame i msg)
    (hch : r.options.channel.isReliable = true) : msg.channel = r.options.channel := by
  cases h with
  | inline hin =>
    unfold inlineFrame
    cases hc : r.options.channel <;> rfl
  | piece i hf hi => rw [pieceFrame, if_pos hch]

theorem WellFormed.length_le (hw : e.WellFormed)
    (hch : e.record.options.channel.isReliable = true) :
    e.record.before.drawn (.message e.record.options.channel) + e.sent.length ≤
      e.record.after.drawn (.message e.record.options.channel) := by
  have hall : e.sent.countP (·.channel = e.record.options.channel) = e.sent.length := by
    rw [List.countP_eq_length]
    intro msg hmem
    obtain ⟨i, hi⟩ := List.mem_iff_getElem?.mp hmem
    simpa using channel_eq_of_isFrame (Sent.isFrame hi hw) hch
  rw [← hall]
  exact hw.count_le _ hch

end Entry

/-- The entries of a session with the given history, in order. -/
structure Ledger (trace : List Event) (L : List Entry) : Prop where
  wellFormed : ∀ e ∈ L, e.WellFormed
  chain : L.Pairwise fun e e' => e.record.after.trace <+: e'.record.before.trace
  last : ∀ e ∈ L, e.record.after.trace <+: trace

namespace Ledger

variable {trace trace' : List Event} {L : List Entry} {e e' : Entry} {i : ℕ}

theorem mono (h : Ledger trace L) (ht : trace <+: trace') : Ledger trace' L :=
  ⟨h.wellFormed, h.chain, fun e he => (h.last e he).trans ht⟩

/-- One more call of `send`. -/
theorem snoc (h : Ledger trace L) (hw : e.WellFormed) (hb : e.record.before.trace = trace) :
    Ledger e.record.after.trace (L ++ [e]) where
  wellFormed := by
    intro x hx
    rcases List.mem_append.mp hx with hx | hx
    · exact h.wellFormed x hx
    · rw [List.mem_singleton.mp hx]
      exact hw
  chain := by
    rw [List.pairwise_append]
    refine ⟨h.chain, List.pairwise_singleton _ _, ?_⟩
    intro x hx y hy
    rw [List.mem_singleton.mp hy, hb]
    exact h.last x hx
  last := by
    intro x hx
    rcases List.mem_append.mp hx with hx | hx
    · have hlast := h.last x hx
      rw [← hb] at hlast
      exact hlast.trans hw.trace_prefix
    · rw [List.mem_singleton.mp hx]

theorem total (h : Ledger trace L) (he : e ∈ L) (he' : e' ∈ L) (hne : e ≠ e') :
    e.record.after.trace <+: e'.record.before.trace ∨
      e'.record.after.trace <+: e.record.before.trace := by
  let R := fun x y : Entry => x.record.after.trace <+: y.record.before.trace ∨
    y.record.after.trace <+: x.record.before.trace
  have : Std.Symm R := ⟨fun _ _ => Or.symm⟩
  have hR : L.Pairwise R := h.chain.imp Or.inl
  exact hR.forall he he' hne

theorem eq_of_drawn (h : Ledger trace L) (he : e ∈ L) (he' : e' ∈ L) {k : Counter} (i i' : ℕ)
    (hi : e.record.before.drawn k + i < e.record.after.drawn k)
    (hi' : e'.record.before.drawn k + i' < e'.record.after.drawn k)
    (heq : e.record.before.drawn k + i = e'.record.before.drawn k + i') : e = e' := by
  by_contra hne
  have hle : ∀ {x y : Entry}, x.record.after.trace <+: y.record.before.trace →
      x.record.after.drawn k ≤ y.record.before.drawn k := fun hp => hp.sublist.count_le _
  rcases h.total he he' hne with hp | hp
  · have := hle hp
    omega
  · have := hle hp
    omega

def Bounded (trace : List Event) : Prop := ∀ k, trace.count (.drew k) + 1 < 2 ^ 64

theorem Bounded.of_prefix (h : Bounded trace') (ht : trace <+: trace') : Bounded trace := by
  intro k
  have hle := ht.sublist.count_le (Event.drew k)
  have hlt := h k
  omega

theorem drawn_lt (h : Ledger trace L) (hb : Bounded trace) (he : e ∈ L) (k : Counter) :
    e.record.after.drawn k + 1 < 2 ^ 64 :=
  hb.of_prefix (h.last e he) k

/-- The ids of an entry, without wrapping around. -/
theorem frameId_toNat (h : Ledger trace L) (hb : Bounded trace) (he : e ∈ L)
    (hch : e.record.options.channel.isReliable = true) (hi : i < e.sent.length) :
    (e.record.frameId i).toNat =
        1 + (e.record.before.drawn (.message e.record.options.channel) + i) ∧
      e.record.before.drawn (.message e.record.options.channel) + i <
        e.record.after.drawn (.message e.record.options.channel) := by
  have hw := h.wellFormed e he
  have hne : e.sent ≠ [] := List.ne_nil_of_length_pos (Nat.zero_lt_of_lt hi)
  have hle := hw.length_le hch
  have hlt := h.drawn_lt hb he (.message e.record.options.channel)
  refine ⟨?_, by omega⟩
  rw [SendRecord.frameId, (hw.numbered hne).message _ hch, ← UInt64.ofNat_add,
    UInt64.toNat_ofNat', Nat.mod_eq_of_lt (by omega)]
  omega

theorem frameId_ne_zero (h : Ledger trace L) (hb : Bounded trace) (he : e ∈ L)
    (hch : e.record.options.channel.isReliable = true) (hi : i < e.sent.length) :
    e.record.frameId i ≠ 0 := by
  intro h0
  have hn := (h.frameId_toNat hb he hch hi).1
  rw [h0] at hn
  simp at hn
  omega

theorem frameId_inj (h : Ledger trace L) (hb : Bounded trace) (he : e ∈ L) (he' : e' ∈ L)
    (hch : e.record.options.channel.isReliable = true)
    (hsame : e'.record.options.channel = e.record.options.channel) {i' : ℕ} (hi : i < e.sent.length)
    (hi' : i' < e'.sent.length) (heq : e.record.frameId i = e'.record.frameId i') :
    e = e' ∧ i = i' := by
  obtain ⟨hn, hd⟩ := h.frameId_toNat hb he hch hi
  obtain ⟨hn', hd'⟩ := h.frameId_toNat hb he' (hsame ▸ hch) hi'
  rw [hsame] at hn' hd'
  have hnum := congrArg UInt64.toNat heq
  rw [hn, hn'] at hnum
  obtain rfl := h.eq_of_drawn he he' i i' hd hd' (by omega)
  exact ⟨rfl, by omega⟩

theorem messageId_toNat (h : Ledger trace L) (hb : Bounded trace) (he : e ∈ L)
    (hs : e.sent ≠ []) (hf : e.record.Fragmented) :
    e.record.message.messageId.toNat = 1 + e.record.before.drawn .fragment ∧
      e.record.before.drawn .fragment < e.record.after.drawn .fragment := by
  have hw := h.wellFormed e he
  have hlt := h.drawn_lt hb he .fragment
  have hd := (hw.draws hs).fragment hf
  refine ⟨?_, hd⟩
  change e.record.before.nextFragmentMessageId.toNat = _
  rw [(hw.numbered hs).fragment, UInt64.toNat_ofNat', Nat.mod_eq_of_lt (by omega)]

theorem messageId_inj (h : Ledger trace L) (hb : Bounded trace) (he : e ∈ L) (he' : e' ∈ L)
    (hs : e.sent ≠ []) (hs' : e'.sent ≠ []) (hf : e.record.Fragmented) (hf' : e'.record.Fragmented)
    (heq : e.record.message.messageId = e'.record.message.messageId) : e = e' := by
  obtain ⟨hn, hd⟩ := h.messageId_toNat hb he hs hf
  obtain ⟨hn', hd'⟩ := h.messageId_toNat hb he' hs' hf'
  rw [heq, hn'] at hn
  exact h.eq_of_drawn he he' 0 0 hd hd' (by omega)

theorem sequence_toNat (h : Ledger trace L) (hb : Bounded trace) (he : e ∈ L)
    (hs : e.sent ≠ []) (hch : e.record.options.channel = .reliableOrdered) :
    e.record.before.nextOrderedSequence.toNat = 1 + e.record.before.drawn .ordered ∧
      e.record.before.drawn .ordered < e.record.after.drawn .ordered := by
  have hw := h.wellFormed e he
  have hlt := h.drawn_lt hb he .ordered
  have hd := (hw.draws hs).ordered hch
  refine ⟨?_, hd⟩
  rw [(hw.numbered hs).ordered, UInt64.toNat_ofNat', Nat.mod_eq_of_lt (by omega)]

theorem sequence_inj (h : Ledger trace L) (hb : Bounded trace) (he : e ∈ L) (he' : e' ∈ L)
    (hs : e.sent ≠ []) (hs' : e'.sent ≠ []) (hch : e.record.options.channel = .reliableOrdered)
    (hch' : e'.record.options.channel = .reliableOrdered)
    (heq : e.record.before.nextOrderedSequence = e'.record.before.nextOrderedSequence) :
    e = e' := by
  obtain ⟨hn, hd⟩ := h.sequence_toNat hb he hs hch
  obtain ⟨hn', hd'⟩ := h.sequence_toNat hb he' hs' hch'
  rw [heq, hn'] at hn
  exact h.eq_of_drawn he he' 0 0 hd hd' (by omega)

/-- The message that was cut up under an id. -/
def messages (L : List Entry) (id : UInt64) : Option FragmentedMessage :=
  (L.find? fun e => !e.sent.isEmpty && (decide e.record.Fragmented &&
    decide (e.record.message.messageId = id))).map (·.record.message)

theorem mem_of_messages {id : UInt64} {m : FragmentedMessage} (h : messages L id = some m) :
    ∃ e ∈ L, e.sent ≠ [] ∧ e.record.Fragmented ∧ e.record.message = m ∧ m.messageId = id := by
  obtain ⟨e, he, rfl⟩ := Option.map_eq_some_iff.mp h
  have hp := List.find?_some he
  simp only [Bool.and_eq_true, Bool.not_eq_true', decide_eq_true_eq] at hp
  refine ⟨e, List.mem_of_find?_eq_some he, ?_, hp.2.1, rfl, hp.2.2⟩
  intro hnil
  rw [hnil] at hp
  cases hp.1

theorem messages_append {id : UInt64} {m : FragmentedMessage} (h : messages L id = some m)
    (L' : List Entry) : messages (L ++ L') id = some m := by
  obtain ⟨e, he, rfl⟩ := Option.map_eq_some_iff.mp h
  rw [messages, List.find?_append, he]
  rfl

theorem messages_eq (h : Ledger trace L) (hb : Bounded trace) (he : e ∈ L) (hs : e.sent ≠ [])
    (hf : e.record.Fragmented) :
    messages L e.record.message.messageId = some e.record.message := by
  have hsome : (messages L e.record.message.messageId).isSome = true := by
    rw [messages, Option.isSome_map, List.find?_isSome]
    exact ⟨e, he, by simp [hs, hf]⟩
  obtain ⟨m, hm⟩ := Option.isSome_iff_exists.mp hsome
  obtain ⟨e', he', hs', hf', rfl, hid⟩ := mem_of_messages hm
  rw [hm, h.messageId_inj hb he he' hs hs' hf hf' hid.symm]

/-- The message that was sent with a number on the ordered channel. -/
def orderedSends (L : List Entry) (n : ℕ) : Option BufferedMessage :=
  (L.find? fun e => e.record.ok && (decide (e.record.options.channel = .reliableOrdered) &&
    decide (e.record.before.nextOrderedSequence.toNat = n))).map fun e =>
      (e.record.type, e.record.payload)

theorem mem_of_orderedSends {n : ℕ} {m : BufferedMessage} (h : orderedSends L n = some m) :
    ∃ e ∈ L, e.record.ok = true ∧ e.record.options.channel = .reliableOrdered ∧
      (e.record.type, e.record.payload) = m ∧ e.record.before.nextOrderedSequence.toNat = n := by
  obtain ⟨e, he, rfl⟩ := Option.map_eq_some_iff.mp h
  have hp := List.find?_some he
  simp only [Bool.and_eq_true, decide_eq_true_eq] at hp
  exact ⟨e, List.mem_of_find?_eq_some he, hp.1, hp.2.1, rfl, hp.2.2⟩

theorem orderedSends_append {n : ℕ} {m : BufferedMessage} (h : orderedSends L n = some m)
    (L' : List Entry) : orderedSends (L ++ L') n = some m := by
  obtain ⟨e, he, rfl⟩ := Option.map_eq_some_iff.mp h
  rw [orderedSends, List.find?_append, he]
  rfl

theorem orderedSends_eq (h : Ledger trace L) (hb : Bounded trace) (he : e ∈ L)
    (hok : e.record.ok = true) (hch : e.record.options.channel = .reliableOrdered) :
    orderedSends L e.record.before.nextOrderedSequence.toNat =
      some (e.record.type, e.record.payload) := by
  have hsome : (orderedSends L e.record.before.nextOrderedSequence.toNat).isSome = true := by
    rw [orderedSends, Option.isSome_map, List.find?_isSome]
    exact ⟨e, he, by simp [hok, hch]⟩
  obtain ⟨m, hm⟩ := Option.isSome_iff_exists.mp hsome
  obtain ⟨e', he', hok', hch', rfl, hseq⟩ := mem_of_orderedSends hm
  have hs := (h.wellFormed e he).sent_of_ok hok
  have hs' := (h.wellFormed e' he').sent_of_ok hok'
  rw [hm, h.sequence_inj hb he he' hs hs' hch hch' (UInt64.toNat_inj.mp hseq.symm)]

end Ledger

end SecureCnet
