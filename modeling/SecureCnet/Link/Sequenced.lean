import SecureCnet.Link.Delivery

/-!
# The sequenced channel

Messages of the sequenced channel may be lost. The receiver keeps the number of the
newest one and takes only higher numbers, so none is delivered twice or after a newer
one, and each was sent under its number.
-/

namespace SecureCnet

variable {C : Crypto} {M : List SendRecord} {s s' : Session} {p q : Party}

theorem SequencedReceiveWindow.accept_cases (n : UInt64) (w : SequencedReceiveWindow) :
    w.accept n = (false, w) ∨
      w.accept n = (true, ⟨true, n⟩) ∧ (w.initialized = true → w.latest < n) := by
  unfold accept
  split_ifs with h0 hinit hold
  · exact Or.inl rfl
  · exact Or.inr ⟨rfl, fun h => by simp [h] at hinit⟩
  · exact Or.inl rfl
  · have hset : w.initialized = true := by simpa using hinit
    exact Or.inr ⟨by rw [← hset], fun _ => UInt64.not_le.mp hold⟩

/-- The messages are those of successful sends on the sequenced channel, under increasing
numbers. -/
structure InSequence (M rs : List SendRecord) (out : List BufferedMessage) : Prop where
  sent : ∀ r ∈ rs, r ∈ M ∧ r.ok = true ∧ r.options.channel = .sequencedUnreliable
  increasing : rs.Pairwise fun r r' =>
    r.before.nextSequencedSequence < r'.before.nextSequencedSequence
  contents : out = rs.map fun r => (r.type, r.payload)

/-- The numbers are not above the newest one. -/
def SequencedReceiveWindow.Covers (w : SequencedReceiveWindow) (rs : List SendRecord) : Prop :=
  ∀ r ∈ rs, w.initialized = true ∧ r.before.nextSequencedSequence ≤ w.latest

def Session.Heard (M : List SendRecord) (s : Session) : Prop :=
  ∃ rs, InSequence M rs (s.deliveredOn .sequencedUnreliable) ∧ s.sequenced.Covers rs

/-- The sequenced channel of a party whose peer has made the calls `M`. -/
def Party.Heard (M : List SendRecord) (p : Party) : Prop :=
  ∃ rs, InSequence M rs (p.session.deliveredOn .sequencedUnreliable) ∧
    (p.Dead ∨ p.session.sequenced.Covers rs)

theorem Session.Heard.of_eq (h : s.Heard M) (hq : s'.sequenced = s.sequenced)
    (hd : s'.deliveredOn .sequencedUnreliable = s.deliveredOn .sequencedUnreliable) :
    s'.Heard M := by
  unfold Heard
  rw [hq, hd]
  exact h

theorem Session.Heard.party (h : p.session.Heard M) : p.Heard M :=
  h.imp fun _ h => ⟨h.1, Or.inr h.2⟩

theorem Party.Heard.silent (h : p.Heard M) (hs : p.Silent q) : q.Heard M := by
  obtain ⟨rs, hin, hcov⟩ := h
  refine ⟨rs, ?_, ?_⟩
  · rwa [Session.deliveredOn_eq, Session.receipts_eq_inbound, hs.inbound,
      ← Session.receipts_eq_inbound, ← Session.deliveredOn_eq]
  · rcases hcov with hdead | hcov
    · exact Or.inl (hs.dead hdead)
    · exact hs.inbox.imp id fun hbox => by rwa [hbox.sequenced]

theorem Session.Heard.orViolation {r : Result Unit × Party} (h : r.2.session.Heard M)
    (now : UInt64) (reason : CloseReason) : (Party.orViolation C now reason r).Heard M := by
  obtain ⟨rc, q⟩ := r
  cases rc with
  | ok u => exact h.party
  | error e => exact h.party.silent (Party.violation_silent now reason q)

/-- A message goes to `deliver_application_message`. -/
theorem Session.Heard.delivered (h : s.Heard M) {m : FragmentedMessage}
    (hm : m.channel = .sequencedUnreliable → ∃ r ∈ M, r.ok = true ∧ r.message = m) :
    (s.deliverMessage m).2.Heard M := by
  have hlog : ∀ (t : Session) (msg : MsgView), msg.channel ≠ .sequencedUnreliable →
      (t.emitMessage msg).deliveredOn .sequencedUnreliable =
        t.deliveredOn .sequencedUnreliable := by
    intro t msg hne
    simp [deliveredOn, emitMessage, log, Event.emittedOn, hne]
  unfold Session.deliverMessage deliverApplicationMessage
  split_ifs with hord hseq
  · -- The ordered window may release any number of messages.
    have hall : ∀ (out : List BufferedMessage) (t : Session), t.Heard M →
        (out.foldl (fun s m => s.emitMessage ⟨.reliableOrdered, m.1, m.2⟩) t).Heard M := by
      intro out
      induction out with
      | nil => exact fun t ht => ht
      | cons m out ih => exact fun t ht => ih _ (ht.of_eq rfl (hlog t _ (by simp)))
    split
    · exact h.of_eq rfl rfl
    · exact hall _ _ (h.of_eq rfl rfl)
  · obtain ⟨r, hr, hok, rfl⟩ := hm hseq
    have hch : r.options.channel = .sequencedUnreliable := hseq
    have hnum : r.message.deliverySequence = r.before.nextSequencedSequence := by
      simp [SendRecord.message, fragmentedMessage, hch]
    obtain ⟨rs, hin, hcov⟩ := h
    rcases s.sequenced.accept_cases r.message.deliverySequence with hold | ⟨hnew, hlt⟩
    · rw [hold]
      exact ⟨rs, hin, hcov⟩
    · rw [hnew]
      rw [hnum] at hlt ⊢
      have hbelow : ∀ r' ∈ rs, r'.before.nextSequencedSequence < r.before.nextSequencedSequence :=
        fun r' hr' => UInt64.lt_of_le_of_lt (hcov r' hr').2 (hlt (hcov r' hr').1)
      refine ⟨rs ++ [r], ⟨?_, ?_, ?_⟩, ?_⟩
      · simpa [or_imp, forall_and, hr, hok, hch] using hin.sent
      · simpa [List.pairwise_append] using ⟨hin.increasing, hbelow⟩
      · have hout := hin.contents
        unfold deliveredOn at hout
        simp [deliveredOn, emitMessage, log, Event.emittedOn, hout]
        exact ⟨rfl, rfl⟩
      · simpa [SequencedReceiveWindow.Covers, emitMessage, log, or_imp, forall_and] using
          fun r' hr' => UInt64.le_of_lt (hbelow r' hr')
  · exact h.of_eq rfl (hlog s _ hseq)

theorem Session.Heard.log (h : s.Heard M) {e : Event}
    (he : e.emittedOn .sequencedUnreliable = none) : (s.log e).Heard M :=
  h.of_eq rfl (by simp [deliveredOn, Session.log, he])

theorem Session.Heard.accepting {ch : Channel} {id : UInt64} (h : p.session.Heard M)
    (hq : Party.Accepting ch id p q) : q.session.Heard M := by
  refine h.of_eq hq.sequenced ?_
  rw [deliveredOn_eq, deliveredOn_eq, hq.receipts, List.filterMap_append]
  split_ifs <;> simp [Event.emittedOn]

/-- A piece goes to the reassembler, which hands over a message that was sent. -/
theorem Session.Heard.piece {A : UInt64 → Option FragmentedMessage} {m : FragmentedMessage}
    {i : UInt16} (h : q.session.Heard M) (hr : q.session.reassembler.Consistent A)
    (hA : A m.messageId = some m) (hm : m.Sendable) (hi : i < m.fragmentCount) (now : UInt64)
    (hsent : (∀ j < m.fragmentCount.toNat, j ≠ i.toNat →
      q.session.reassembler.Has m.messageId j) → ∃ r ∈ M, r.ok = true ∧ r.message = m) :
    (Party.orViolation C now .invalidPacket (q.handleFragmentPayload now (m.piece i))).Heard M := by
  refine orViolation ?_ now _
  by_cases hadm : q.Admits m
  swap
  · rw [Party.handleFragmentPayload_of_not_admits hr hA hm hi now hadm]
    exact h
  obtain ⟨rc, ra, s, hpiece, -, -, heq, -⟩ :=
    Party.handleFragmentPayload_of_admits hr hA hm hi now hadm
  rw [heq]
  cases hpiece with
  | refused e hcode hwhy => exact absurd hadm.1 hwhy
  | duplicate r' hold hhas | stored r' hfresh hmissing hhas => exact h.of_eq rfl rfl
  | completed r' s' hfresh hrest hdone hhas | failed e r' s' hfresh hrest hdone hhas =>
    obtain rfl : ((q.session.log (.reassembled m)).deliverMessage m).2 = s :=
      congrArg Prod.snd hdone
    exact ((h.log rfl).delivered fun _ => hsent hrest).of_eq rfl rfl

section

variable {trace : List Event} {L : List Entry} {x : Entry} {i : ℕ}

/-- A frame of the ledger arrives. -/
theorem Session.Heard.dispatch {msg : MsgView} (hled : Ledger trace L) (hb : Ledger.Bounded trace)
    (hw : Windows L p.session) (hx : x ∈ L) (hmsg : x.Sent i msg)
    (ht : x.record.type ≠ ControlType.fragment.code) (now : UInt64)
    (h : p.session.Heard (L.map Entry.record)) :
    (p.dispatchMessageFrame C now msg).Heard (L.map Entry.record) := by
  have hwf := hled.wellFormed x hx
  have hi := hmsg.lt
  have hs := hmsg.ne_nil
  have hid : x.record.options.channel.isReliable = true → x.record.frameId i ≠ 0 :=
    fun hch => hled.frameId_ne_zero hb hx hch hi
  have hacc := Party.accepting_spec (C := C) x.record.options.channel (x.record.frameId i) p
  have hrec : x.record ∈ L.map Entry.record := List.mem_map_of_mem hx
  cases hmsg.isFrame hwf with
  | inline hin =>
    have hok := hwf.ok_of_inline hs hin
    have hdisp := Party.dispatch_inline (C := C) (hwf.checked hs) (not_lt.mp hin) ht now
      (by rw [← SendRecord.frameId_zero]; exact hid) p
    rw [← SendRecord.frameId_zero] at hdisp
    rw [hdisp]
    split_ifs
    · exact ((Session.Heard.log (h.accepting hacc) rfl).delivered
        fun _ => ⟨_, hrec, hok, rfl⟩).orViolation now _
    · exact (h.accepting hacc).party
    · exact (h.delivered fun _ => ⟨_, hrec, hok, rfl⟩).orViolation now _
  | piece _ hf hlt =>
    have hnat : (UInt16.ofNat i).toNat = i :=
      (UInt16.toNat_ofNat' ..).trans (Nat.mod_eq_of_lt (hlt.trans (UInt16.toNat_lt _)))
    have hlt' : UInt16.ofNat i < x.record.message.fragmentCount := by
      rwa [UInt16.lt_iff_toNat_lt, hnat]
    have hm := hwf.sendable hs hf
    have hpiece : ∀ q : Party, q.session.Heard (L.map Entry.record) →
        q.session.reassembler = p.session.reassembler → (Party.orViolation C now .invalidPacket
          (q.handleFragmentPayload now (x.record.message.piece (UInt16.ofNat i)))).Heard
            (L.map Entry.record) := by
      intro q hq hsame
      refine hq.piece (hsame ▸ hw.consistent) (hled.messages_eq hb hx hs hf) hm hlt' now ?_
      -- With all pieces there the message was sent as a whole.
      intro hrest
      rw [hnat, hsame] at hrest
      refine ⟨x.record, hrec, hwf.ok_of_all hs hf fun j hj => ?_, rfl⟩
      by_cases hji : j = i
      · exact hji ▸ hi
      · exact (hw.has x hx hs hf j (hrest j hj hji)).1
    rw [Party.dispatch_piece hm hlt' now hid]
    split_ifs
    · exact hpiece _ (h.accepting hacc) hacc.reassembler
    · exact (h.accepting hacc).party
    · exact hpiece p h rfl

end

namespace Link

variable {L RL : List Entry} {l : Link} {cid : UInt64} {K : SessionKeys}

theorem Account.heard_step (hC : C.IdealAead) (h : Account C cid K L RL l) (hu : l.Unwrapped)
    (hp : l.PlainTypes) (hheard : l.right.party.Heard l.left.sends) (a : Action) :
    (l.step C a).right.party.Heard (l.step C a).left.sends := by
  cases a with
  | left op =>
    obtain ⟨rs, hin, hcov⟩ := hheard
    have hsub : l.left.sends ⊆ (l.left.step C l.right.wire op).sends :=
      (End.step_sends_prefix _ op _).subset
    exact ⟨rs, ⟨fun r hr => ⟨hsub (hin.sent r hr).1, (hin.sent r hr).2⟩, hin.increasing,
      hin.contents⟩, hcov⟩
  | right op =>
    change (l.right.step C l.left.wire op).party.Heard l.left.sends
    by_cases hop : ∃ i now, op = .receive i now
    · obtain ⟨i, now, rfl⟩ := hop
      rcases End.step_receives hC h.left.wire h.rx_eq i now with hsil | ⟨datagram, -, hr⟩
      · exact hheard.silent hsil
      rcases hr with hsil | ⟨q, msg, ⟨hd, -, hsaid | ⟨ch, id, rfl, -⟩⟩, hopened, hsil⟩
      · exact hheard.silent hsil
      · obtain ⟨x, hx, i, hi⟩ := hsaid
        have hw := (h.receiver.windows.resolve_left hd).sameInbox hopened.inbox
        have hmem : x.record ∈ l.left.sends := h.left.records ▸ List.mem_map_of_mem hx
        have hlive : l.right.party.session.Heard l.left.sends :=
          hheard.imp fun _ h => ⟨h.1, h.2.resolve_left hd⟩
        have hold := hlive.of_eq hopened.inbox.sequenced (by
          rw [Session.deliveredOn_eq, Session.deliveredOn_eq, hopened.inbox.receipts])
        rw [← h.left.records] at hold ⊢
        exact (hold.dispatch h.left.ledger (fun k => (hu k).1) hw hx hi
          (hp x.record hmem) now).silent hsil
      · exact hheard.silent (hopened.silent.trans
          ((Party.dispatch_ackFrame_silent now ch id q).trans hsil))
    · have hquiet : ∀ i now, op ≠ .receive i now := fun i now heq => hop ⟨i, now, heq⟩
      rcases End.step_silent l.left.wire hquiet with hsil | ⟨now, hsil⟩
      · exact hheard.silent hsil
      · exact Party.Heard.silent (p := l.right.party.expireFragments now) hheard hsil

/-- In every run the receiver has delivered on the sequenced channel only messages that were sent
there successfully, in the order of their numbers, and none twice. -/
theorem sequenced_in_sequence (hC : C.IdealAead) (h : l.Fresh C) (actions : List Action)
    (hu : (l.run C actions).Unwrapped) (hp : (l.run C actions).PlainTypes) :
    ∃ rs, InSequence (l.run C actions).left.sends rs
      ((l.run C actions).right.party.session.deliveredOn .sequencedUnreliable) := by
  suffices hheard : (l.run C actions).right.party.Heard (l.run C actions).left.sends from
    hheard.imp fun _ => And.left
  induction actions using List.reverseRecOn with
  | nil =>
    refine ⟨[], ⟨by simp, .nil, ?_⟩, Or.inr fun _ h => by cases h⟩
    change l.right.party.session.deliveredOn _ = []
    simp [Session.deliveredOn, h.right.trace]
  | append_singleton actions a ih =>
    rw [run_append] at hu hp ⊢
    obtain ⟨L, RL, hacc⟩ := h.run_account hC actions hu.of_step hp.of_step
    exact hacc.heard_step hC hu.of_step hp.of_step (ih hu.of_step hp.of_step) a

/-- Two sequenced messages; the second arrives first, the first comes too late. -/
def overtaken : List Action :=
  [.left (.send { channel := .sequencedUnreliable } 7 [1] 5),
    .left (.send { channel := .sequencedUnreliable } 8 [2] 6),
    .left (.flush 0 7 .sent), .left (.flush 0 7 .sent),
    .right (.receive 1 8), .right (.receive 0 9)]

theorem sequenced_in_sequence_overtaken :
    (established.run .standIn overtaken).right.party.session.deliveredOn .sequencedUnreliable =
        [(8, [2])] ∧
      ∃ rs, InSequence (established.run .standIn overtaken).left.sends rs
        ((established.run .standIn overtaken).right.party.session.deliveredOn
          .sequencedUnreliable) :=
  ⟨by decide +kernel, sequenced_in_sequence Crypto.standIn_idealAead (established_fresh _) overtaken
    (unwrapped_of_length (by decide +kernel) (by decide +kernel))
    (show ∀ r ∈ _, _ by decide +kernel)⟩

end Link

end SecureCnet
