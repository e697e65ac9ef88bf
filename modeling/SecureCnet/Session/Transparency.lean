import SecureCnet.Session.Inbox

/-!
# Transparency of the send path

What a sender accepts is fed, packet by packet, to a session that has received
nothing yet. The message comes out once and unchanged exactly when it is not
mistaken for a fragment, starts the ordered stream if it is ordered, and fits the
receiver's reassembly limits if it is fragmented.
-/

namespace SecureCnet

theorem orderedInsert_eq_append {α : Type*} (r : α → α → Prop) [DecidableRel r] {a : α}
    {l : List α} (h : ∀ b ∈ l, ¬r a b) : l.orderedInsert r a = l ++ [a] := by
  induction l with
  | nil => rfl
  | cons b l ih =>
    rw [List.orderedInsert_cons, if_neg (h b (by simp)), ih fun c hc => h c (by simp [hc])]
    rfl

theorem Transport.push_pending {net : Transport} {pkt : PendingPacket}
    (h : ∀ q ∈ net.pending, q.priority = pkt.priority) :
    (net.push pkt).pending = net.pending ++ [{ pkt with arrival := net.arrivals }] := by
  apply orderedInsert_eq_append
  intro q hq
  rw [h q hq]
  exact lt_irrefl _

namespace Party

variable {C : Crypto} {priority : SendPriority} {p q : Party} {msgs : List MsgView}
  {pkts : List PendingPacket}

/-- A queued packet with one message frame, sealed under the given key. -/
def Holding (C : Crypto) (connId : UInt64) (key : Block 32) (msg : MsgView)
    (pkt : PendingPacket) : Prop :=
  ∃ seq, buildPacket C .message true msg.encode connId seq key = .ok pkt.bytes

/-- Queueing with one priority appends packets that hold the frames in order. -/
structure Appends (C : Crypto) (priority : SendPriority) (p q : Party) (msgs : List MsgView)
    (pkts : List PendingPacket) : Prop where
  pending : q.net.pending = p.net.pending ++ pkts
  priority : ∀ pkt ∈ pkts, pkt.priority = priority
  holding : List.Forall₂ (Holding C p.session.connId p.session.keys.tx) msgs pkts
  connId : q.session.connId = p.session.connId
  keys : q.session.keys = p.session.keys

theorem Queued.appends {payload : Bytes} {rc : Result Unit} {q' : Party}
    (h : Queued C q .message payload priority rc q') (ha : Appends C priority p q msgs pkts)
    (hp : ∀ pkt ∈ p.net.pending, pkt.priority = priority) :
    (∃ e, rc = .error e ∧ Appends C priority p q' msgs pkts) ∨
      (rc = .ok () ∧ ∃ pkt, q'.net.pending = p.net.pending ++ (pkts ++ [pkt]) ∧
        pkt.priority = priority ∧
        (∃ seq, buildPacket C .message true payload p.session.connId seq p.session.keys.tx =
          .ok pkt.bytes) ∧
        q'.session.connId = p.session.connId ∧ q'.session.keys = p.session.keys) := by
  cases h with
  | refused e => exact Or.inl ⟨e, rfl, ha⟩
  | burned e => exact Or.inl ⟨e, rfl, ha.pending, ha.priority, ha.holding, ha.connId, ha.keys⟩
  | dropped e => exact Or.inl ⟨e, rfl, ha.pending, ha.priority, ha.holding, ha.connId, ha.keys⟩
  | queued bytes hbuild hkeys =>
    right
    refine ⟨rfl, ⟨q.session.endpoint, q.ownerConnId, bytes, priority, q.net.arrivals⟩, ?_, rfl, ?_,
      ha.connId, ha.keys⟩
    · have hall : ∀ x ∈ q.net.pending, x.priority = priority := by
        intro x hx
        rw [ha.pending] at hx
        rcases List.mem_append.mp hx with hx | hx
        · exact hp x hx
        · exact ha.priority x hx
      change (q.net.push _).pending = _
      rw [Transport.push_pending hall, ha.pending, List.append_assoc]
    · rw [ha.connId, ha.keys] at hbuild
      exact ⟨_, hbuild⟩

theorem Appends.snoc {msg : MsgView} {pkt : PendingPacket} {q' : Party}
    (ha : Appends C priority p q msgs pkts)
    (hpend : q'.net.pending = p.net.pending ++ (pkts ++ [pkt])) (hprio : pkt.priority = priority)
    (hold : Holding C p.session.connId p.session.keys.tx msg pkt)
    (hc : q'.session.connId = p.session.connId) (hk : q'.session.keys = p.session.keys) :
    Appends C priority p q' (msgs ++ [msg]) (pkts ++ [pkt]) where
  pending := hpend
  priority := by
    intro x hx
    rcases List.mem_append.mp hx with hx | hx
    · exact ha.priority x hx
    · rw [List.mem_singleton.mp hx]
      exact hprio
  holding := List.rel_append ha.holding (.cons hold .nil)
  connId := hc
  keys := hk

theorem Appends.enqueued (ha : Appends C priority p q msgs pkts) (ch : Channel)
    (rs : ReliableSession) :
    Appends C priority p (q.enqueued ch rs) msgs pkts where
  pending := ha.pending
  priority := ha.priority
  holding := ha.holding
  connId := by simpa [Party.enqueued, log] using ha.connId
  keys := by simpa [Party.enqueued, log] using ha.keys

/-- The packets of a send stand at the end of a queue of their priority. -/
theorem Sending.appends (h : Sending C priority p msgs q)
    (hp : ∀ pkt ∈ p.net.pending, pkt.priority = priority) :
    ∃ pkts, Appends C priority p q msgs pkts := by
  induction h with
  | start => exact ⟨[], by simp, by simp, .nil, rfl, rfl⟩
  | drawFragmentId _ ih | drawOrdered _ ih | drawSequenced _ ih =>
    obtain ⟨pkts, ha⟩ := ih
    exact ⟨pkts, ha.pending, ha.priority, ha.holding, ha.connId, ha.keys⟩
  | burned _ ch _ ih =>
    obtain ⟨pkts, ha⟩ := ih
    exact ⟨pkts, ha.enqueued ch _⟩
  | lost _ payload e hq ih =>
    obtain ⟨pkts, ha⟩ := ih
    rcases hq.appends ha hp with ⟨_, -, ha'⟩ | ⟨h, -⟩
    · exact ⟨pkts, ha'⟩
    · cases h
  | frame _ msg _ hq ih =>
    obtain ⟨pkts, ha⟩ := ih
    rcases hq.appends ha hp with ⟨_, h, -⟩ | ⟨-, pkt, h1, h2, h3, h4, h5⟩
    · cases h
    · exact ⟨_, ha.snoc h1 h2 h3 h4 h5⟩
  | withdrawn _ ch m rs e now henq hq ih =>
    obtain ⟨pkts, ha⟩ := ih
    rcases hq.appends (ha.enqueued ch rs) hp with ⟨_, -, h⟩ | ⟨h, -⟩
    · exact ⟨pkts, h.pending, h.priority, h.holding, by simpa using h.connId,
        by simpa using h.keys⟩
    · cases h
  | reliable _ ch m rs now henq hq ih =>
    obtain ⟨pkts, ha⟩ := ih
    rcases hq.appends (ha.enqueued ch rs) hp with ⟨_, h, -⟩ | ⟨-, pkt, h1, h2, h3, h4, h5⟩
    · cases h
    · exact ⟨_, ha.snoc h1 h2 h3 (by simpa using h4) (by simpa using h5)⟩

end Party

namespace Session

/-- A number that a channel delivers first. -/
def Starts (ch : Channel) (sequence : UInt64) : Prop :=
  (ch = .reliableOrdered → sequence = 1) ∧ (ch = .sequencedUnreliable → sequence ≠ 0)

instance (ch : Channel) (sequence : UInt64) : Decidable (Starts ch sequence) :=
  inferInstanceAs (Decidable (_ ∧ _))

theorem accept_first {w : OrderedReceiveWindow} (hn : w.nextExpected = 1) (hb : w.buffer = ∅)
    (t : UInt8) (d : Bytes) : (w.accept 1 t d).1 = .ok [(t, d)] := by
  simp [OrderedReceiveWindow.accept, hn, hb, OrderedReceiveWindow.release]

theorem accept_later {w : OrderedReceiveWindow} (hn : w.nextExpected = 1) {seq : UInt64}
    (hseq : seq ≠ 1) (t : UInt8) (d : Bytes) :
    (w.accept seq t d).1 = .ok [] ∨ ∃ e, (w.accept seq t d).1 = .error e := by
  by_cases h0 : seq = 0
  · right
    simp [OrderedReceiveWindow.accept, h0, fail]
  have hlt : ¬seq < 1 := by
    rw [UInt64.lt_iff_toNat_lt]
    have : seq.toNat ≠ 0 := fun h => h0 (UInt64.toNat_inj.mp h)
    simp
    omega
  rw [OrderedReceiveWindow.accept_of_ne_zero (by simp [hn]) h0, hn, if_neg hlt, if_neg hseq]
  split_ifs
  · exact Or.inl rfl
  · exact Or.inr ⟨_, rfl⟩
  · exact Or.inl rfl

theorem emitted_emitMessage (msg : MsgView) (s : Session) :
    (s.emitMessage msg).emitted = s.emitted ++ [msg] := by
  simp [emitMessage, Event.emittedMessage]

/-- The first delivery on a channel reaches the application if its number allows it. -/
theorem emitted_deliver {s : Session} (hn : s.ordered.nextExpected = 1) (hb : s.ordered.buffer = ∅)
    (hq : s.sequenced = {}) (ch : Channel) (t : UInt8) (d : Bytes) (seq : UInt64) :
    (s.deliverApplicationMessage ch t d seq).2.emitted =
      s.emitted ++ if Starts ch seq then [⟨ch, t, d⟩] else [] := by
  have hset : ∀ w, emitted { s with ordered := w } = s.emitted := fun w => rfl
  unfold deliverApplicationMessage
  by_cases ho : ch = .reliableOrdered
  · subst ho
    by_cases h1 : seq = 1
    · subst h1
      have hacc := accept_first hn hb t d
      cases hr : s.ordered.accept 1 t d with
      | mk rc w =>
        rw [hr] at hacc
        simp only at hacc
        subst hacc
        simp [Starts, emitted_emitMessage, hset]
    · have hst : ¬Starts .reliableOrdered seq := fun h => h1 (h.1 rfl)
      have hacc := accept_later hn h1 t d
      cases hr : s.ordered.accept seq t d with
      | mk rc w =>
        rw [hr] at hacc
        rcases hacc with hacc | ⟨e, hacc⟩
        · simp only at hacc
          subst hacc
          simp [hst, hset]
        · simp only at hacc
          subst hacc
          simp [hst, hset]
  · by_cases hs : ch = .sequencedUnreliable
    · subst hs
      by_cases h0 : seq = 0
      · simp [Starts, h0, SequencedReceiveWindow.accept, emitted, receipts]
      · simp [Starts, h0, hq, SequencedReceiveWindow.accept, emitted_emitMessage]
        rfl
    · simp [ho, hs, Starts, emitted_emitMessage]

end Session

/-- What follows the message id in an inline frame of a reliable channel. -/
def inlineBody (channel : Channel) (payload : Bytes) (s : Session) : Bytes :=
  if channel = .reliableOrdered then be64 s.nextOrderedSequence ++ payload else payload

/-- An inline message that arrives as a fragment of some other message. -/
def Misread (channel : Channel) (type : UInt8) (payload : Bytes) (s : Session) : Prop :=
  channel.isReliable = true ∧ type = ControlType.fragment.code ∧
    looksLikeFragment (inlineBody channel payload s) = true

instance (channel : Channel) (type : UInt8) (payload : Bytes) (s : Session) :
    Decidable (Misread channel type payload s) :=
  inferInstanceAs (Decidable (_ ∧ _))

namespace Party

variable {C : Crypto} {r q r₀ : Party} {s : Session} {ch : Channel} {t : UInt8} {payload : Bytes}
  {connId : UInt64} {pkts : List PendingPacket}

/-- The streams of a receiver are at their start. -/
structure FreshStreams (s : Session) : Prop where
  nextExpected : s.ordered.nextExpected = 1
  buffer : s.ordered.buffer = ∅
  sequenced : s.sequenced = {}
  entries : s.reassembler.entries = ∅

theorem Accepting.freshStreams {id : UInt64} (h : Accepting ch id r q) (hr : FreshStreams r.session) :
    FreshStreams q.session :=
  ⟨by rw [h.ordered]; exact hr.nextExpected, by rw [h.ordered]; exact hr.buffer,
    by rw [h.sequenced]; exact hr.sequenced, by rw [h.reassembler]; exact hr.entries⟩

theorem Accepting.emitted {id : UInt64} (h : Accepting ch id r q) :
    q.session.emitted = r.session.emitted := by
  unfold Session.emitted
  rw [h.receipts, List.filterMap_append]
  split_ifs <;> simp [Event.emittedMessage]

theorem emitted_onSession_deliver (hr : FreshStreams r.session) (now : UInt64)
    (reason : CloseReason) (ch : Channel) (t : UInt8) (d : Bytes) (seq : UInt64) :
    (orViolation C now reason
        (r.onSession (Session.deliverApplicationMessage ch t d seq))).session.emitted =
      r.session.emitted ++ if Session.Starts ch seq then [⟨ch, t, d⟩] else [] := by
  rw [orViolation_emitted]
  exact Session.emitted_deliver hr.nextExpected hr.buffer hr.sequenced ch t d seq

/-- The only fragment so far yields at most a message as long as its data. -/
theorem emitted_handleFragmentPayload (hr : FreshStreams r.session) (now : UInt64)
    {f : FragmentView} (hf : f.WellFormed) :
    ∃ out : List MsgView, (r.handleFragmentPayload now f).2.session.emitted =
        r.session.emitted ++ out ∧ ∀ x ∈ out, x.data.length = f.data.length := by
  unfold handleFragmentPayload
  split_ifs
  · exact ⟨[], by simp, by simp⟩
  have hstate := FragmentReassembler.accept_state_of_empty hr.entries now f
    Session.deliverReassembledMessage r.session
  cases hacc : r.session.reassembler.accept now f Session.deliverReassembledMessage r.session with
  | mk rc rest =>
    obtain ⟨ra, s'⟩ := rest
    rw [hacc] at hstate
    have hem : ∃ out : List MsgView, s'.emitted = r.session.emitted ++ out ∧
        ∀ x ∈ out, x.data.length = f.data.length := by
      rcases hstate with h | ⟨m, h, hone, hlen⟩
      · exact ⟨[], by rw [show s' = r.session from h]; simp, by simp⟩
      · have hdata : f.data.length = f.originalLength.toNat := by
          have hc := hf.index_toNat
          have hcount := fragmentCountForLength_toNat f.originalLength
          rw [hf.size, fragmentSizeForIndex_toNat hc]
          rw [← hf.count, hone] at hc hcount
          simp at hc hcount
          omega
        have hdel := Session.emitted_deliver (s := r.session.log (.reassembled m))
          hr.nextExpected hr.buffer hr.sequenced m.channel m.type m.payload m.deliverySequence
        refine ⟨if Session.Starts m.channel m.deliverySequence then
          [⟨m.channel, m.type, m.payload⟩] else [], ?_, ?_⟩
        · rw [show s' = _ from h]
          simpa [Event.emittedMessage, Session.deliverReassembledMessage] using hdel
        · intro x hx
          split_ifs at hx
          · rw [List.mem_singleton.mp hx, hdata]
            exact hlen
          · cases hx
    cases rc <;> exact hem

theorem accept_fresh {id : UInt64} (hid : id ≠ 0) :
    (ReliableReceiveWindow.accept id {}).1 = true := by
  simp [ReliableReceiveWindow.accept, hid]

/-- An inline reliable frame comes out as it went in, unless it passes for a fragment. -/
theorem emitted_reliable_iff (hr : r.session.FreshInbox) (now : UInt64)
    (hch : ch.isReliable = true) {id : UInt64} (hid : id ≠ 0) (hlen : payload.length ≤ 0xFFF0)
    (hseq : ch = .reliableOrdered → s.nextOrderedSequence ≠ 0) :
    (r.dispatchMessageFrame C now
        ⟨ch, t, be64 id ++ inlineBody ch payload s⟩).session.emitted =
          r.session.emitted ++ [⟨ch, t, payload⟩] ↔
      ¬Misread ch t payload s ∧ (ch = .reliableOrdered → s.nextOrderedSequence = 1) := by
  have hbody : (inlineBody ch payload s).length ≤ payload.length + 8 := by
    unfold inlineBody
    split_ifs <;> simp
    omega
  have hdisp : r.dispatchMessageFrame C now ⟨ch, t, be64 id ++ inlineBody ch payload s⟩ =
      (r.accepting C ch id).dispatchBody C now ch id t (inlineBody ch payload s) := by
    rw [dispatch_reliable now hch hid (by omega), hr.received, accept_fresh hid, if_pos rfl]
  have hacc := accepting_spec (C := C) ch id r
  rw [hdisp, ← hacc.emitted]
  generalize r.accepting C ch id = q at hacc
  have hq := hacc.freshStreams ⟨hr.nextExpected, hr.buffer, hr.sequenced, hr.entries⟩
  by_cases hmis : t = ControlType.fragment.code ∧
      looksLikeFragment (inlineBody ch payload s) = true
  · -- Taken for a fragment: what is emitted is too short to be the payload.
    have hmr : Misread ch t payload s := ⟨hch, hmis⟩
    simp only [hmr, not_true_eq_false, false_and, iff_false]
    obtain ⟨f, hf⟩ := looksLikeFragment_iff.mp hmis.2
    obtain ⟨henc, hwf⟩ := readFragmentPayload_eq_ok.mp hf
    obtain ⟨out, hout, hall⟩ := emitted_handleFragmentPayload hq now hwf
    rw [dispatchBody_fragment now hmis.1 hf, orViolation_emitted, hout]
    intro heq
    have := hall ⟨ch, t, payload⟩ (by rw [List.append_cancel_left heq]; simp)
    have hl := congrArg List.length henc
    simp only [FragmentView.length_encode] at hl
    simp only at this
    omega
  · have hmr : ¬Misread ch t payload s := fun h => hmis h.2
    rw [dispatchBody_user now hmis]
    simp only [hmr, not_false_eq_true, true_and]
    have hlog : ∀ d, FreshStreams (q.log (.passed ch id t d)).session := fun d =>
      ⟨hq.nextExpected, hq.buffer, hq.sequenced, hq.entries⟩
    unfold dispatchUserData inlineBody
    split_ifs with ho
    · have hread' : readOrderedPayload (be64 s.nextOrderedSequence ++ payload) =
          .ok (s.nextOrderedSequence, payload) :=
        readEnvelope_eq_ok.mpr ⟨rfl, hseq ho, by omega⟩
      rw [hread']
      dsimp only
      rw [emitted_onSession_deliver (hlog payload)]
      subst ho
      by_cases h1 : s.nextOrderedSequence = 1
      · simp [h1, Session.Starts, log, Event.emittedMessage]
      · simp [h1, Session.Starts, log, Event.emittedMessage]
    · have hrel : ch = .reliable := by
        cases ch <;> simp_all [Channel.isReliable]
      rw [emitted_onSession_deliver (hlog payload)]
      subst hrel
      simp [Session.Starts, log, Event.emittedMessage]

/-- Two states of a receiver that deliver the same way. -/
structure SameDelivery (r q : Party) : Prop where
  side : q.side = r.side
  otherMemory : q.otherMemory = r.otherMemory
  state : q.session.state = r.session.state
  keys : q.session.keys = r.session.keys
  ordered : q.session.ordered = r.session.ordered
  sequenced : q.session.sequenced = r.session.sequenced
  reassembler : q.session.reassembler = r.session.reassembler
  emitted : q.session.emitted = r.session.emitted

theorem Accepting.sameDelivery {id : UInt64} (h : Accepting ch id r q) : SameDelivery r q :=
  ⟨h.side, h.otherMemory, h.state, h.keys, h.ordered, h.sequenced, h.reassembler, h.emitted⟩

/-- All ids the window knows are smaller. -/
def Below (w : ReliableReceiveWindow) (id : UInt64) : Prop :=
  w.window.initialized = true → w.window.latest < id

theorem Below.accept_eq {w : ReliableReceiveWindow} {id : UInt64} (h : Below w id) (hid : id ≠ 0) :
    (w.accept id).1 = true ∧ (w.accept id).2.window.latest = id := by
  rw [ReliableReceiveWindow.accept_of_ne_zero hid]
  unfold ReplayWindow.accept
  cases hi : w.window.initialized with
  | false => exact ⟨rfl, rfl⟩
  | true => simp [h hi]

theorem Below.succ {w : ReliableReceiveWindow} {id : UInt64} (h : Below w id) (hid : id ≠ 0)
    (hnext : id + 1 ≠ 0) : Below (w.accept id).2 (id + 1) := by
  intro _
  rw [(h.accept_eq hid).2]
  have hid' : id.toNat + 1 ≠ 2 ^ 64 := by
    intro h0
    apply hnext
    apply UInt64.toNat_inj.mp
    rw [UInt64.toNat_add]
    simp [h0]
  have := id.toNat_lt
  rw [UInt64.lt_iff_toNat_lt, UInt64.toNat_add, Nat.mod_eq_of_lt (by simp; omega)]
  simp

variable {m : FragmentedMessage} {id : UInt64} {i : UInt16}

/-- A frame with a piece goes to the reassembler, unless a reliable window refuses its id. -/
theorem dispatch_pieceFrame (hm : m.Sendable) (hi : i < m.fragmentCount) (now : UInt64)
    (hid : ch.isReliable = true → id ≠ 0) :
    ∃ q, SameDelivery r q ∧
      (ch.isReliable = true → (q.session.reliableFor ch).received =
        ((r.session.reliableFor ch).received.accept id).2) ∧
      r.dispatchMessageFrame C now (pieceFrame ch m id i) =
        if !ch.isReliable || ((r.session.reliableFor ch).received.accept id).1 then
          orViolation C now .invalidPacket (q.handleFragmentPayload now (m.piece i))
        else q := by
  have hdisp := dispatch_piece (C := C) hm hi now hid r
  cases hch : ch.isReliable with
  | false =>
    refine ⟨r, ⟨rfl, rfl, rfl, rfl, rfl, rfl, rfl, rfl⟩, by simp, ?_⟩
    rw [hdisp, hch]
    rfl
  | true =>
    have hacc := accepting_spec (C := C) ch id r
    refine ⟨r.accepting C ch id, hacc.sameDelivery, fun _ => ?_, ?_⟩
    · rw [hacc.received, if_pos Iff.rfl]
    · rw [hdisp, hch, if_pos rfl, Bool.not_true, Bool.false_or]

variable (C) in
/-- One packet, opened and dispatched. -/
def takeIn (now : UInt64) (bytes : Bytes) (p : Party) : Party :=
  match parsePacket bytes with
  | .error _ => p
  | .ok packet =>
    match p.openPacket C packet with
    | .error _ => p
    | .ok plaintext => p.dispatchMessagePayload C now plaintext

/-- A client stops reading once it is closed. -/
def stopped (p : Party) : Bool :=
  match p.side with
  | .client _ => p.session.state = .closed
  | .server _ => false

variable (C) in
/-- The packets of a queue, once each and in order. -/
def feed (now : UInt64) : List PendingPacket → Party → Party
  | [], p => p
  | pkt :: pkts, p =>
    let p := p.takeIn C now pkt.bytes
    if p.stopped then p else feed now pkts p

theorem takeIn_holding (hC : C.IdealAead) {key : Block 32} {msg : MsgView} {pkt : PendingPacket}
    (h : Holding C connId key msg pkt) (hk : r.session.keys.rx = key) (now : UInt64) :
    r.takeIn C now pkt.bytes = r.dispatchMessageFrame C now msg := by
  obtain ⟨seq, hb⟩ := h
  obtain ⟨c, hparse, hlen, hopen⟩ := openPacket_of_buildPacket hC hb
  unfold takeIn
  rw [hparse]
  dsimp only
  rw [hopen r hk]
  apply dispatchMessagePayload_encode
  simp at hlen
  omega

/-- A receiver that holds exactly the first `k` pieces of a message. -/
structure Gathering (m : FragmentedMessage) (id : UInt64) (k : ℕ) (r₀ r : Party) : Prop where
  keys : r.session.keys = r₀.session.keys
  state : r.session.state ≠ .closed
  nextExpected : r.session.ordered.nextExpected = 1
  buffer : r.session.ordered.buffer = ∅
  sequenced : r.session.sequenced = {}
  emitted : r.session.emitted = r₀.session.emitted
  consistent : r.session.reassembler.Consistent fun x => if x = m.messageId then some m else none
  has : ∀ j, r.session.reassembler.Has m.messageId j ↔ j < k
  admits : r.Admits m
  below : m.channel.isReliable = true → Below (r.session.reliableFor m.channel).received id

theorem Admits.of_has (h : r.Admits m)
    (hcfg : q.session.reassembler.cfg = r.session.reassembler.cfg) {j : ℕ}
    (hhas : q.session.reassembler.Has m.messageId j) : q.Admits m := by
  obtain ⟨e, he, -⟩ := hhas
  have hcont : q.session.reassembler.contains m.messageId = true := by
    simp [FragmentReassembler.contains, he]
  refine ⟨⟨by rw [hcfg]; exact h.1.1, by rw [hcfg]; exact h.1.2.1, by rw [hcfg]; exact h.1.2.2.1,
    Or.inl hcont⟩, ?_⟩
  have hpc : q.session.reassembler.contains (m.piece 0).messageId = true := hcont
  unfold overServerQuota
  cases q.side with
  | client config => rfl
  | server config => simp [hpc]

theorem SameDelivery.admits (h : SameDelivery r q) (ha : r.Admits m) : q.Admits m := by
  unfold Admits overServerQuota at ha ⊢
  rw [h.reassembler, h.side, h.otherMemory]
  exact ha

/-- The next piece is stored, or it is the last one and the message goes to the application. -/
theorem Gathering.step {k : ℕ} (h : Gathering m id k r₀ r) (hm : m.Sendable)
    (hk : k < m.fragmentCount.toNat) (now : UInt64)
    (hid : m.channel.isReliable = true → id ≠ 0 ∧ (k + 1 < m.fragmentCount.toNat → id + 1 ≠ 0)) :
    (k + 1 < m.fragmentCount.toNat ∧ Gathering m (id + 1) (k + 1) r₀
      (r.dispatchMessageFrame C now (pieceFrame m.channel m id (UInt16.ofNat k)))) ∨
    (k + 1 = m.fragmentCount.toNat ∧
      (r.dispatchMessageFrame C now
        (pieceFrame m.channel m id (UInt16.ofNat k))).session.emitted = r₀.session.emitted ++
          if Session.Starts m.channel m.deliverySequence then
            [⟨m.channel, m.type, m.payload⟩] else []) := by
  have hmax := m.fragmentCount.toNat_lt
  have hkn : (UInt16.ofNat k).toNat = k := by
    rw [UInt16.toNat_ofNat', Nat.mod_eq_of_lt (by omega)]
  have hi : UInt16.ofNat k < m.fragmentCount := by
    rw [UInt16.lt_iff_toNat_lt, hkn]
    exact hk
  obtain ⟨q, hsame, hrecv, hdisp⟩ := dispatch_pieceFrame (C := C) (r := r) hm hi now
    fun hr => (hid hr).1
  have hfresh : (!m.channel.isReliable ||
      ((r.session.reliableFor m.channel).received.accept id).1) = true := by
    cases hr : m.channel.isReliable with
    | false => rfl
    | true => exact ((h.below hr).accept_eq (hid hr).1).1
  rw [if_pos hfresh] at hdisp
  have hadm := hsame.admits h.admits
  have hcons := h.consistent
  have hhas := h.has
  rw [← hsame.reassembler] at hcons hhas
  obtain ⟨rc, ra, s, hpiece, hcons', hcfg, heq, hok⟩ :=
    handleFragmentPayload_of_admits hcons (if_pos rfl) hm hi now hadm
  rw [hkn] at hpiece
  rw [hdisp]
  -- The last piece, whatever the application makes of the message.
  have hlast : (∀ j < m.fragmentCount.toNat, j ≠ k → q.session.reassembler.Has m.messageId j) →
      s = (q.session.deliverReassembledMessage m).2 →
      k + 1 = m.fragmentCount.toNat ∧
        (orViolation C now .invalidPacket
          (q.handleFragmentPayload now (m.piece (UInt16.ofNat k)))).session.emitted =
            r₀.session.emitted ++ if Session.Starts m.channel m.deliverySequence then
              [⟨m.channel, m.type, m.payload⟩] else [] := by
    intro hrest hs
    constructor
    · by_contra hne
      have := (hhas (k + 1)).mp (hrest (k + 1) (by omega) (by omega))
      omega
    · have hdel := Session.emitted_deliver (s := q.session.log (.reassembled m))
        (by rw [Session.log_ordered, hsame.ordered]; exact h.nextExpected)
        (by rw [Session.log_ordered, hsame.ordered]; exact h.buffer)
        (by rw [Session.log_sequenced, hsame.sequenced]; exact h.sequenced)
        m.channel m.type m.payload m.deliverySequence
      rw [orViolation_emitted, heq]
      change s.emitted = _
      rw [hs, Session.deliverReassembledMessage, hdel, Session.emitted_log, hsame.emitted,
        h.emitted]
      simp [Event.emittedMessage]
  cases hpiece with
  | refused e _ hwhy => exact absurd hadm.1 hwhy
  | duplicate _ hold _ => exact absurd ((hhas k).mp hold) (lt_irrefl k)
  | completed _ _ _ hrest hdone _ => exact Or.inr (hlast hrest (by rw [hdone]))
  | failed e _ _ _ hrest hdone _ => exact Or.inr (hlast hrest (by rw [hdone]))
  | stored _ _ hmissing hhas' =>
    have hk1 : ∀ j, ra.Has m.messageId j ↔ j < k + 1 := by
      intro j
      rw [hhas', hhas]
      simp
      omega
    obtain ⟨j, hj, hnot⟩ := hmissing
    rw [hk1] at hnot
    have hlt : k + 1 < m.fragmentCount.toNat := by omega
    refine Or.inl ⟨hlt, ?_⟩
    have hres : orViolation C now .invalidPacket
        (q.handleFragmentPayload now (m.piece (UInt16.ofNat k))) =
        { q with session := { q.session with reassembler := ra } } := by
      rw [← heq]
      generalize q.handleFragmentPayload now (m.piece (UInt16.ofNat k)) = x at hok
      obtain ⟨rc, x⟩ := x
      simp only [forall_const] at hok
      rw [hok]
      rfl
    rw [hres]
    exact {
      keys := hsame.keys.trans h.keys
      state := by
        change q.session.state ≠ .closed
        rw [hsame.state]
        exact h.state
      nextExpected := by
        change q.session.ordered.nextExpected = 1
        rw [hsame.ordered]
        exact h.nextExpected
      buffer := by
        change q.session.ordered.buffer = ∅
        rw [hsame.ordered]
        exact h.buffer
      sequenced := hsame.sequenced.trans h.sequenced
      emitted := hsame.emitted.trans h.emitted
      consistent := hcons'
      has := hk1
      admits := hadm.of_has (j := 0) hcfg ((hk1 0).mpr (by omega))
      below := by
        intro hr
        change Below (q.session.reliableFor m.channel).received (id + 1)
        rw [hrecv hr]
        exact (h.below hr).succ (hid hr).1 ((hid hr).2 hlt) }

/-- Frames whose reliable numbers are not zero. -/
def Numbered (msgs : List MsgView) : Prop :=
  ∀ msg ∈ msgs, msg.channel.isReliable = true → ∃ id body, id ≠ 0 ∧ msg.data = be64 id ++ body

theorem Numbered.head {is : List UInt16} (h : Numbered (pieceFrames ch m id (i :: is)))
    (hch : ch.isReliable = true) : id ≠ 0 := by
  obtain ⟨id', body, hid, heq⟩ := h (pieceFrame ch m id i) (by simp [pieceFrames])
    (by rw [pieceFrame, if_pos hch]; exact hch)
  rw [pieceFrame, if_pos hch] at heq
  obtain ⟨hbe, -⟩ := List.append_inj heq (by simp)
  rw [be64_inj hbe]
  exact hid

/-- All remaining pieces, in order, complete the message. -/
theorem Gathering.feed (hC : C.IdealAead) (hm : m.Sendable) (now : UInt64) (d : ℕ) {k : ℕ}
    (h : Gathering m id k r₀ r) (hkd : k + (d + 1) = m.fragmentCount.toNat)
    (hnum : Numbered (pieceFrames m.channel m id ((List.range' k (d + 1)).map UInt16.ofNat))) (hold
      : List.Forall₂ (Holding C connId r₀.session.keys.rx) (pieceFrames m.channel m id ((List.range'
      k (d + 1)).map UInt16.ofNat)) pkts) :
    (r.feed C now pkts).session.emitted = r₀.session.emitted ++
      if Session.Starts m.channel m.deliverySequence then
        [⟨m.channel, m.type, m.payload⟩] else [] := by
  -- One more piece per round; the last one empties the list.
  induction d generalizing k id r pkts with
  | zero =>
    rw [List.range'_succ] at hold hnum
    simp only [List.range'_zero, List.map_cons, List.map_nil, pieceFrames] at hold
    obtain ⟨pkt, rest, hpkt, hrest, rfl⟩ := List.forall₂_cons_left_iff.mp hold
    obtain rfl := List.forall₂_nil_left_iff.mp hrest
    have htake := takeIn_holding hC hpkt (by rw [h.keys]) now
    rcases h.step (C := C) hm (by omega) now fun hr => ⟨hnum.head hr, by omega⟩ with
      ⟨hlt, -⟩ | ⟨-, hem⟩
    · omega
    · unfold Party.feed
      rw [htake]
      simp only [Party.feed, ite_self]
      exact hem
  | succ d ih =>
    rw [List.range'_succ] at hold hnum
    simp only [List.map_cons, pieceFrames] at hold
    obtain ⟨pkt, rest, hpkt, hrest, rfl⟩ := List.forall₂_cons_left_iff.mp hold
    have htake := takeIn_holding hC hpkt (by rw [h.keys]) now
    have hnum' : Numbered (pieceFrames m.channel m (id + 1)
        ((List.range' (k + 1) (d + 1)).map UInt16.ofNat)) :=
      fun msg hmsg => hnum msg (by simp [pieceFrames, hmsg])
    have hnext : m.channel.isReliable = true → id + 1 ≠ 0 := by
      rw [List.range'_succ] at hnum'
      exact fun hr => hnum'.head hr
    rcases h.step (C := C) hm (by omega) now fun hr => ⟨hnum.head hr, fun _ => hnext hr⟩ with
      ⟨-, hg⟩ | ⟨heq, -⟩
    · have hrun : (Party.stopped (r.dispatchMessageFrame C now
          (pieceFrame m.channel m id (UInt16.ofNat k)))) = false := by
        unfold Party.stopped
        cases (r.dispatchMessageFrame C now (pieceFrame m.channel m id (UInt16.ofNat k))).side with
        | client config => simpa using hg.state
        | server config => rfl
      unfold Party.feed
      rw [htake]
      simp only [hrun, Bool.false_eq_true, if_false]
      exact ih hg (by omega) hnum' hrest
    · omega

/-- A receiver that has taken in nothing. -/
structure Refusing (r₀ r : Party) : Prop where
  side : r.side = r₀.side
  otherMemory : r.otherMemory = r₀.otherMemory
  keys : r.session.keys = r₀.session.keys
  reassembler : r.session.reassembler = r₀.session.reassembler
  emitted : r.session.emitted = r₀.session.emitted

theorem Refusing.admits_iff (h : Refusing r₀ r) (m : FragmentedMessage) :
    r.Admits m ↔ r₀.Admits m := by
  unfold Admits overServerQuota
  rw [h.reassembler, h.side, h.otherMemory]

/-- A violation stops a client and leaves a server session as it was. -/
theorem Refusing.violation (h : Refusing r₀ r) (now : UInt64) (reason : CloseReason) :
    (r.violation C now reason).session.emitted = r₀.session.emitted ∧
      ((r.violation C now reason).stopped = true ∨ Refusing r₀ (r.violation C now reason)) := by
  have hem : (r.violation C now reason).session.emitted = r₀.session.emitted := by
    rw [← h.emitted]
    unfold Session.emitted
    rw [violation_receipts]
  refine ⟨hem, ?_⟩
  unfold Party.violation at hem ⊢
  cases hs : r.side with
  | client config =>
    left
    have hclosed : (r.failConnection reason).session.state = .closed := by
      simp only [failConnection, Session.transitionState]
      split_ifs with hst
      · exact hst
      · rfl
    have hside : (r.failConnection reason).side = .client config := hs
    rw [stopped, hside, hclosed]
    rfl
  | server config =>
    right
    rw [hs] at hem
    dsimp only at hem ⊢
    obtain ⟨n, st, es, net, heq, -⟩ := closeSession_eq (C := C) now reason r
    rw [heq] at hem ⊢
    exact ⟨h.side, h.otherMemory, h.keys, h.reassembler, hem⟩

theorem Refusing.step (h : Refusing r₀ r) (hm : m.Sendable) (hi : i < m.fragmentCount)
    (hempty : r₀.session.reassembler.entries = ∅) (hno : ¬r₀.Admits m) (now : UInt64)
    (hid : ch.isReliable = true → id ≠ 0) :
    (r.dispatchMessageFrame C now (pieceFrame ch m id i)).session.emitted = r₀.session.emitted ∧
      ((r.dispatchMessageFrame C now (pieceFrame ch m id i)).stopped = true ∨
        Refusing r₀ (r.dispatchMessageFrame C now (pieceFrame ch m id i))) := by
  obtain ⟨q, hsame, -, hdisp⟩ := dispatch_pieceFrame (C := C) (r := r) hm hi now hid
  have hq : Refusing r₀ q := ⟨hsame.side.trans h.side, hsame.otherMemory.trans h.otherMemory,
    hsame.keys.trans h.keys, hsame.reassembler.trans h.reassembler, hsame.emitted.trans h.emitted⟩
  rw [hdisp]
  split_ifs
  · have hcons : q.session.reassembler.Consistent
        fun x => if x = m.messageId then some m else none := by
      intro x e he
      rw [hq.reassembler, hempty] at he
      cases he
    have hsnd := handleFragmentPayload_of_not_admits hcons (if_pos rfl) hm hi now
      (fun hadm => hno ((hq.admits_iff m).mp hadm))
    generalize q.handleFragmentPayload now (m.piece i) = x at hsnd
    obtain ⟨rc, x⟩ := x
    simp only at hsnd
    subst hsnd
    cases rc with
    | ok u => exact ⟨hq.emitted, Or.inr hq⟩
    | error e => exact hq.violation now .invalidPacket
  · exact ⟨hq.emitted, Or.inr hq⟩

/-- Pieces without room leave no trace at the application. -/
theorem Refusing.feed (hC : C.IdealAead) (hm : m.Sendable)
    (hempty : r₀.session.reassembler.entries = ∅) (hno : ¬r₀.Admits m) (now : UInt64)
    (is : List UInt16) (his : ∀ i ∈ is, i < m.fragmentCount) (h : Refusing r₀ r)
    (hnum : Numbered (pieceFrames ch m id is))
    (hold : List.Forall₂ (Holding C connId r₀.session.keys.rx) (pieceFrames ch m id is) pkts) :
    (r.feed C now pkts).session.emitted = r₀.session.emitted := by
  induction is generalizing id r pkts with
  | nil =>
    obtain rfl := List.forall₂_nil_left_iff.mp hold
    exact h.emitted
  | cons i is ih =>
    obtain ⟨pkt, rest, hpkt, hrest, rfl⟩ := List.forall₂_cons_left_iff.mp hold
    have htake := takeIn_holding hC hpkt (by rw [h.keys]) now
    obtain ⟨hem, hnext⟩ := h.step (C := C) hm (his i (by simp)) hempty hno now
      fun hr => hnum.head hr
    unfold Party.feed
    rw [htake]
    dsimp only
    split_ifs with hstop
    · exact hem
    · rcases hnext with hs | hnext
      · exact absurd hs hstop
      · exact ih (fun j hj => his j (by simp [hj])) hnext
          (fun msg hmsg => hnum msg (by simp [pieceFrames, hmsg])) hrest

/-- When a message comes out as it went in. -/
def Transparent (o : SendOptions) (t : UInt8) (payload : Bytes) (s : Session) (r : Party) : Prop :=
  if o.channel.maxInlinePayloadSize < payload.length then
    Session.Starts o.channel (s.fragmentedMessage o.channel t payload).deliverySequence ∧
      r.Admits (s.fragmentedMessage o.channel t payload)
  else ¬Misread o.channel t payload s ∧
    (o.channel = .reliableOrdered → s.nextOrderedSequence = 1)

instance (o : SendOptions) (t : UInt8) (payload : Bytes) (s : Session) (r : Party) :
    Decidable (Transparent o t payload s r) :=
  inferInstanceAs (Decidable (ite _ _ _))

theorem gathering_start (hr : r.session.FreshInbox) (hopen : r.session.state ≠ .closed)
    (hadm : r.Admits m) (id : UInt64) : Gathering m id 0 r r where
  keys := rfl
  state := hopen
  nextExpected := hr.nextExpected
  buffer := hr.buffer
  sequenced := hr.sequenced
  emitted := rfl
  consistent := by
    intro x e he
    rw [hr.entries] at he
    cases he
  has := by
    intro j
    simp [FragmentReassembler.Has, hr.entries]
  admits := hadm
  below := by
    intro _ hinit
    rw [hr.received] at hinit
    cases hinit

theorem inlineFrame_of_isReliable (hch : ch.isReliable = true) (t : UInt8) (payload : Bytes)
    (s : Session) : inlineFrame ch t payload s =
      ⟨ch, t, be64 (s.reliableFor ch).nextMessageId ++ inlineBody ch payload s⟩ := by
  cases ch <;> first | rfl | cases hch

/-- An inline frame at a fresh receiver. -/
theorem emitted_inline_iff {o : SendOptions} (hr : r.session.FreshInbox) (now : UInt64)
    (hok : SendOk o payload s) (hin : payload.length ≤ o.channel.maxInlinePayloadSize)
    (hnum : Numbered [inlineFrame o.channel t payload s]) :
    (r.dispatchMessageFrame C now (inlineFrame o.channel t payload s)).session.emitted =
        r.session.emitted ++ [⟨o.channel, t, payload⟩] ↔
      ¬Misread o.channel t payload s ∧
        (o.channel = .reliableOrdered → s.nextOrderedSequence = 1) := by
  cases hrel : o.channel.isReliable with
  | true =>
    have hsmall : payload.length ≤ 0xFFF0 :=
      hin.trans (by cases o.channel <;> decide)
    rw [inlineFrame_of_isReliable hrel] at hnum ⊢
    obtain ⟨id, body, hid, hdata⟩ := hnum _ (List.mem_singleton_self _) hrel
    obtain ⟨hbe, -⟩ := List.append_inj hdata (by simp)
    rw [be64_inj hbe]
    exact emitted_reliable_iff hr now hrel hid hsmall (hok.ordered hin)
  | false =>
    have hstreams : FreshStreams r.session :=
      ⟨hr.nextExpected, hr.buffer, hr.sequenced, hr.entries⟩
    have happ := hok.application
    have hseq := hok.sequenced hin
    have hlen := hok.short
    generalize o.channel = ch at hrel happ hseq hin ⊢
    cases ch with
    | reliable | reliableOrdered => cases hrel
    | control => exact absurd rfl happ
    | unreliable =>
      have := emitted_onSession_deliver (C := C) hstreams now .protocolError .unreliable t payload 0
      simp [inlineFrame, dispatchMessageFrame, this, Session.Starts, Misread, Channel.isReliable]
    | sequencedUnreliable =>
      have hread : readSequencedPayload (be64 s.nextSequencedSequence ++ payload) =
          .ok (s.nextSequencedSequence, payload) :=
        readEnvelope_eq_ok.mpr ⟨rfl, hseq rfl, hlen⟩
      have := emitted_onSession_deliver (C := C) hstreams now .protocolError .sequencedUnreliable t
        payload s.nextSequencedSequence
      simp [inlineFrame, dispatchMessageFrame, hread, this, Session.Starts, hseq rfl, Misread,
        Channel.isReliable]

theorem pieceIndices_eq (n : UInt16) :
    pieceIndices n = (List.range' 0 n.toNat).map UInt16.ofNat := by
  rw [pieceIndices, List.range_eq_range']

/-- The queued frames of a fragmented message at a fresh receiver. -/
theorem emitted_fragmented_iff (hC : C.IdealAead) (hr : r.session.FreshInbox)
    (hopen : r.session.state ≠ .closed) (now : UInt64) {m : FragmentedMessage} (hm : m.Sendable)
    {id : UInt64} (hnum : Numbered (pieceFrames m.channel m id (pieceIndices m.fragmentCount)))
      (hold : List.Forall₂ (Holding C connId r.session.keys.rx) (pieceFrames m.channel m id
      (pieceIndices m.fragmentCount)) pkts) :
    (r.feed C now pkts).session.emitted = r.session.emitted ++ [⟨m.channel, m.type, m.payload⟩] ↔
      Session.Starts m.channel m.deliverySequence ∧ r.Admits m := by
  by_cases hadm : r.Admits m
  · obtain ⟨d, hd⟩ := Nat.exists_eq_succ_of_ne_zero
      (fragmentCount_pos hm.nonempty hm.short).ne'
    rw [pieceIndices_eq, hd] at hnum hold
    rw [(gathering_start hr hopen hadm id).feed hC hm now d (by omega) hnum hold]
    simp [hadm]
  · have hrefuse : Refusing r r := ⟨rfl, rfl, rfl, rfl, rfl⟩
    rw [hrefuse.feed hC hm hr.entries hadm now _ (fun i => lt_of_mem_pieceIndices) hnum hold]
    simp [hadm]

/-- What is sent from empty queues comes out at a fresh receiver, once and unchanged, exactly
when it is `Transparent`. -/
theorem send_feed_emitted_iff (hC : C.IdealAead) {p : Party} {o : SendOptions}
    (hempty : p.net.pending = []) (now now' : UInt64)
    (hsend : (p.send C o t payload now).1 = .ok ()) (hr : r.session.FreshInbox)
    (hopen : r.session.state ≠ .closed) (hkeys : r.session.keys = p.session.keys.complement) :
    (r.feed C now' (p.send C o t payload now).2.net.pending).session.emitted =
        r.session.emitted ++ [⟨o.channel, t, payload⟩] ↔
      Transparent o t payload p.session r := by
  obtain ⟨sent, hsending, -, hne, hsent⟩ := send_spec (C := C) o t payload now p
  obtain ⟨hok, -, hiff⟩ := hsent (hne hsend)
  obtain rfl := hiff.mp hsend
  obtain ⟨pkts, ha⟩ := hsending.appends (by simp [hempty])
  have hnum : Numbered (sendFrames o.channel t payload p.session) :=
    fun msg hm hch => hsending.messageId_ne hm hch
  have hrx : r.session.keys.rx = p.session.keys.tx := by rw [hkeys]; rfl
  have hold := ha.holding
  rw [ha.pending, hempty, List.nil_append]
  unfold Transparent
  by_cases hfrag : o.channel.maxInlinePayloadSize < payload.length
  · rw [sendFrames, if_pos hfrag, ← hrx] at hold
    rw [sendFrames, if_pos hfrag] at hnum
    rw [if_pos hfrag]
    have hm : (p.session.fragmentedMessage o.channel t payload).Sendable :=
      ⟨hok.fragmented hfrag, hok.application, hfrag.trans_le' (Nat.zero_le _),
        hok.short.trans_lt (by decide)⟩
    exact emitted_fragmented_iff hC hr hopen now' hm hnum hold
  · rw [sendFrames, if_neg hfrag, ← hrx] at hold
    rw [sendFrames, if_neg hfrag] at hnum
    obtain ⟨pkt, _, hpkt, hnil, rfl⟩ := List.forall₂_cons_left_iff.mp hold
    obtain rfl := List.forall₂_nil_left_iff.mp hnil
    have hfeed : r.feed C now' [pkt] =
        r.dispatchMessageFrame C now' (inlineFrame o.channel t payload p.session) := by
      rw [feed, takeIn_holding hC hpkt rfl, feed]
      exact ite_self _
    rw [if_neg hfrag, hfeed]
    exact emitted_inline_iff hr now' hok (not_lt.mp hfrag) hnum

/-- The client end of an established session, before anything is sent. -/
def establishedClient : Party where
  side := .client {}
  session := { connId := 1, state := .established,
               keys := ⟨List.Vector.replicate 32 1, List.Vector.replicate 32 2⟩ }
  net := { sockOpen := true }

/-- The server end of the session of `establishedClient`. -/
def establishedServer : Party where
  side := .server {}
  session := { connId := 1, state := .established,
               keys := ⟨List.Vector.replicate 32 2, List.Vector.replicate 32 1⟩ }
  net := { sockOpen := true }

theorem establishedServer_freshInbox : establishedServer.session.FreshInbox where
  received := by intro ch; cases ch <;> rfl
  nextExpected := rfl
  buffer := rfl
  sequenced := rfl
  entries := rfl
  memoryBytes := rfl

/-- A payload that reads as the only fragment of a one-byte message. -/
def fragmentLikePayload : Bytes :=
  be64 1 ++ be64 0 ++ [0, 7] ++ be16 0 ++ be16 1 ++ be16 1 ++ [42]

/-- Sent as type 2 on the reliable channel it is accepted, and comes out as another message. -/
theorem send_feed_fragmentLikePayload :
    (establishedClient.send .standIn { channel := .reliable } 2 fragmentLikePayload 5).1 = .ok () ∧
      (establishedServer.feed .standIn 5 (establishedClient.send .standIn { channel := .reliable } 2
          fragmentLikePayload 5).2.net.pending).session.emitted = [⟨.unreliable, 7, [42]⟩] ∧
      ¬(establishedServer.feed .standIn 5 (establishedClient.send .standIn { channel := .reliable } 2
          fragmentLikePayload 5).2.net.pending).session.emitted =
        establishedServer.session.emitted ++ [⟨.reliable, 2, fragmentLikePayload⟩] := by
  decide +kernel

/-- The same payload under another type is transparent. -/
theorem send_feed_emitted_typeThree :
    (establishedServer.feed .standIn 5 (establishedClient.send .standIn { channel := .reliable } 3
        fragmentLikePayload 5).2.net.pending).session.emitted =
      establishedServer.session.emitted ++ [⟨.reliable, 3, fragmentLikePayload⟩] :=
  (send_feed_emitted_iff Crypto.standIn_idealAead rfl 5 5 (by decide +kernel)
    establishedServer_freshInbox (by decide) rfl).mpr (by decide +kernel)

end Party

end SecureCnet
