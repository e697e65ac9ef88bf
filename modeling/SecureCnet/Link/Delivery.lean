import SecureCnet.Library.Numbering
import SecureCnet.Link.Wraparound
import SecureCnet.Session.Transparency

/-!
# What reaches the application

Two guarantees of a whole run. On the reliable channel nothing is delivered that was
not sent, and nothing twice. On the ordered channel the messages delivered so far are
the first of the messages sent, in their order.
-/

namespace SecureCnet

/-- The messages `emit_message` was called with on a channel, in order. -/
def Session.deliveredOn (ch : Channel) (s : Session) : List BufferedMessage :=
  s.trace.filterMap (Event.emittedOn ch)

/-- The messages of the successful sends on a channel, in order. -/
def End.sentOn (ch : Channel) (e : End) : List BufferedMessage :=
  (e.sends.filter fun r => r.ok && decide (r.options.channel = ch)).map fun r =>
    (r.type, r.payload)

theorem End.sentOn_prefix {e e' : End} (h : e.sends <+: e'.sends) (ch : Channel) :
    e.sentOn ch <+: e'.sentOn ch :=
  (h.filter _).map _

theorem Session.deliveredOn_eq (ch : Channel) (s : Session) :
    s.deliveredOn ch = s.receipts.filterMap (Event.emittedOn ch) := by
  unfold deliveredOn receipts
  rw [List.filterMap_filter]
  congr 1
  funext e
  cases e <;> rfl

/-- The successful entries of a channel. -/
def Ledger.okOn (ch : Channel) (L : List Entry) : List Entry :=
  L.filter fun x => x.record.ok && decide (x.record.options.channel = ch)

variable {L : List Entry} {ch : Channel} {e : Event} {es : List Event}

theorem Ledger.mem_okOn {x : Entry} :
    x ∈ okOn ch L ↔ x ∈ L ∧ x.record.ok = true ∧ x.record.options.channel = ch := by
  simp [okOn]

theorem End.Sender.sentOn_eq {C : Crypto} {cid : UInt64} {K : SessionKeys} {e : End}
    (h : e.Sender C cid K L) (ch : Channel) :
    e.sentOn ch = (Ledger.okOn ch L).map fun x => (x.record.type, x.record.payload) := by
  unfold sentOn Ledger.okOn
  rw [← h.records, List.filter_map, List.map_map]
  rfl

/-- The event by which the receiver took the message of an entry. -/
inductive Entry.Taken (x : Entry) : Event → Prop
  | passed (hin : ¬x.record.Fragmented) : Taken x (.passed x.record.options.channel
      (x.record.frameId 0) x.record.type x.record.payload)
  | reassembled (hf : x.record.Fragmented) : Taken x (.reassembled x.record.message)

theorem Entry.Taken.unique {x : Entry} {e' : Event} (h : x.Taken e) (h' : x.Taken e') : e = e' := by
  cases h with
  | passed hin =>
    cases h' with
    | passed _ => rfl
    | reassembled hf => exact absurd hf hin
  | reassembled hf =>
    cases h' with
    | passed hin => exact absurd hf hin
    | reassembled _ => rfl

theorem Event.isOrigin_of_originOn (hch : ch.isReliable = true) {v : BufferedMessage}
    (h : e.originOn ch = some v) : e.isOrigin = true := by
  cases e with
  | passed c id t d => rfl
  | reassembled m =>
    simp only [originOn] at h
    split_ifs at h with hm
    rw [isOrigin, hm]
    exact hch
  | _ => cases h

/-- A message handed over on a channel is that of a successful send. -/
theorem Explained.taken {v : BufferedMessage} (h : Explained L es e) (hv : e.originOn ch = some v) :
    ∃ x ∈ Ledger.okOn ch L, x.Taken e ∧ (x.record.type, x.record.payload) = v := by
  cases e with
  | passed c id t d =>
    obtain ⟨-, x, hx, hok, hin, rfl, rfl, rfl, rfl⟩ := h
    simp only [Event.originOn] at hv
    split_ifs at hv with hch
    exact ⟨x, Ledger.mem_okOn.mpr ⟨hx, hok, hch⟩, .passed hin, Option.some.inj hv⟩
  | reassembled m =>
    obtain ⟨x, hx, hok, hf, rfl, -⟩ := h
    simp only [Event.originOn] at hv
    split_ifs at hv with hch
    exact ⟨x, Ledger.mem_okOn.mpr ⟨hx, hok, hch⟩, .reassembled hf, Option.some.inj hv⟩
  | _ => cases hv

theorem Recorded.subperm (h : Recorded L es) :
    List.Subperm (es.filterMap (Event.emittedOn .reliable))
      ((Ledger.okOn .reliable L).map fun x => (x.record.type, x.record.payload)) := by
  rw [h.reliable]
  refine Numbering.subperm_of_origins ?_
    (fun e he v => (h.explained e he).taken) fun x e e' => Entry.Taken.unique
  refine h.once.sublist (List.monotone_filter_right es ?_)
  intro e he
  obtain ⟨v, hv⟩ := Option.isSome_iff_exists.mp he
  exact Event.isOrigin_of_originOn rfl hv

/-- What was released on the ordered channel is how the successful sends begin. -/
theorem Recorded.orderedOut_prefix {trace : List Event} (h : Recorded L es) (hled : Ledger trace L)
    (hb : Ledger.Bounded trace) :
    orderedOut es <+:
      (Ledger.okOn .reliableOrdered L).map fun x => (x.record.type, x.record.payload) := by
  have hseq : ∀ x ∈ Ledger.okOn .reliableOrdered L,
      x.record.before.nextOrderedSequence.toNat = 1 + x.record.before.drawn .ordered ∧
        x.record.before.drawn .ordered < x.record.after.drawn .ordered := by
    intro x hx
    obtain ⟨hmem, hok, hch⟩ := Ledger.mem_okOn.mp hx
    exact hled.sequence_toNat hb hmem ((hled.wellFormed x hmem).sent_of_ok hok) hch
  refine Numbering.prefix_of_numbers (fun x => x.record.before.nextOrderedSequence.toNat) ?_ ?_ ?_
  · refine (hled.chain.filter _).imp_of_mem ?_
    intro x y hx hy hxy
    obtain ⟨hnx, hdx⟩ := hseq x hx
    obtain ⟨hny, -⟩ := hseq y hy
    have hle : x.record.after.drawn .ordered ≤ y.record.before.drawn .ordered :=
      hxy.sublist.count_le _
    rw [hnx, hny]
    omega
  · intro x hx
    rw [(hseq x hx).1]
    omega
  · intro i hi
    have hsend := h.ordered i hi
    rw [List.getElem?_eq_getElem hi] at hsend
    obtain ⟨x, hx, hok, hch, hc, hn⟩ := Ledger.mem_of_orderedSends hsend
    exact ⟨x, Ledger.mem_okOn.mpr ⟨hx, hok, hch⟩, hn, hc⟩

namespace Link

variable {C : Crypto} {l : Link}

/-- A client and a server with default configurations, their session just set up. -/
def established : Link where
  left := { party := Party.establishedClient.mapBudget fun b =>
    { b with congestion := b.congestion.configure {} (ClientConfig.sendBudgetBytesPerSecond {}) } }
  right := { party := Party.establishedServer.mapBudget fun b =>
    { b with congestion := b.congestion.configure {} (ServerConfig.sendBudgetBytesPerSecond {}) } }

theorem established_fresh (C : Crypto) : established.Fresh C where
  left := ⟨rfl, rfl, rfl, rfl, fun ch => by cases ch <;> rfl,
    ⟨fun ch => by cases ch <;> rfl, rfl, rfl, rfl, rfl, rfl⟩, by simp [established, Party.mapBudget,
      Party.establishedClient]⟩
  right := ⟨rfl, rfl, rfl, rfl, fun ch => by cases ch <;> rfl,
    ⟨fun ch => by cases ch <;> rfl, rfl, rfl, rfl, rfl, rfl⟩, by simp [established, Party.mapBudget,
      Party.establishedServer]⟩
  connId := rfl
  keys := rfl

theorem unwrapped_of_length (hl : l.left.party.session.trace.length + 1 < 2 ^ 64)
    (hr : l.right.party.session.trace.length + 1 < 2 ^ 64) : l.Unwrapped := by
  intro k
  have hcl : l.left.party.session.drawn k ≤ _ := List.count_le_length
  have hcr : l.right.party.session.drawn k ≤ _ := List.count_le_length
  omega

/-- On the ordered channel the receiver has emitted, at every moment of a run, the first
of the messages the sender has sent. -/
theorem ordered_prefix (hC : C.IdealAead) (h : l.Fresh C) (actions : List Action)
    (hu : (l.run C actions).Unwrapped) (hp : (l.run C actions).PlainTypes) :
    (l.run C actions).right.party.session.deliveredOn .reliableOrdered <+:
      (l.run C actions).left.sentOn .reliableOrdered := by
  obtain ⟨L, RL, hacc⟩ := h.run_account hC actions hu hp
  rw [Session.deliveredOn_eq, hacc.left.sentOn_eq]
  exact hacc.receiver.recorded.orderedOut_prefix hacc.left.ledger fun k => (hu k).1

/-- Two ordered messages; the second arrives first and waits. -/
def swapped : List Action :=
  [.left (.send { channel := .reliableOrdered } 7 [1] 5),
    .left (.send { channel := .reliableOrdered } 8 [2] 6),
    .left (.flush 0 7 .sent), .left (.flush 0 7 .sent),
    .right (.receive 1 8), .right (.receive 0 9)]

theorem ordered_prefix_swapped :
    (established.run .standIn swapped).right.party.session.deliveredOn .reliableOrdered =
        [(7, [1]), (8, [2])] ∧
      (established.run .standIn swapped).right.party.session.deliveredOn .reliableOrdered <+:
        (established.run .standIn swapped).left.sentOn .reliableOrdered :=
  ⟨by decide +kernel, ordered_prefix Crypto.standIn_idealAead (established_fresh _) swapped
    (unwrapped_of_length (by decide +kernel) (by decide +kernel))
    (show ∀ r ∈ _, _ by decide +kernel)⟩

/-- `established` with a client that keeps two messages for retransmission. -/
def narrow : Link where
  left := { party := { established.left.party with
    side := .client { reliability := { maxPendingMessages := 2 } }
    session := { established.left.party.session with
      reliable := ReliableSession.configure { maxPendingMessages := 2 } {}
      orderedReliable := ReliableSession.configure { maxPendingMessages := 2 } {} } } }
  right := established.right

theorem narrow_fresh (C : Crypto) : narrow.Fresh C where
  left := ⟨rfl, rfl, rfl, rfl, fun ch => by cases ch <;> rfl,
    ⟨fun ch => by cases ch <;> rfl, rfl, rfl, rfl, rfl, rfl⟩, by simp [narrow, established,
      Party.mapBudget, Party.establishedClient]⟩
  right := (established_fresh C).right
  connId := rfl
  keys := rfl

/-- Two short-lived ordered messages fill the retransmission queue. -/
def waiting : List Action :=
  [.left (.send { channel := .reliableOrdered, lifetimeMs := 10 } 7 [1] 5),
    .left (.send { channel := .reliableOrdered, lifetimeMs := 10 } 7 [2] 5)]

def thirdSend : Action := .left (.send { channel := .reliableOrdered } 8 [3] 6)

/-- They expire, the third message is sent and is the first to arrive. -/
def overtaking : List Action :=
  [.left (.pumpReliable 1000), thirdSend, .left (.flush 0 1001 .sent),
    .left (.flush 0 1001 .sent), .left (.flush 0 1001 .sent), .right (.receive 2 1002)]

def lapped : List Action := waiting ++ List.replicate (2 ^ 64 - 2) thirdSend ++ overtaking

theorem lapped_delivered :
    (narrow.run .standIn lapped).right.party.session.deliveredOn .reliableOrdered =
      [(8, [3])] := by
  have hfull : ∀ p : Party, p.Full .reliableOrdered →
      (p.send .standIn { channel := .reliableOrdered } 8 [3] 6).2 =
          p.mapSession Session.drawOrdered ∧
        (p.mapSession Session.drawOrdered).Full .reliableOrdered :=
    fun p h => ⟨h.send_ordered rfl (by decide), h.state, h.pending⟩
  have hwaiting : (narrow.run .standIn waiting).left.party.Full .reliableOrdered :=
    ⟨by decide +kernel, by decide +kernel⟩
  have hrun := run_laps hfull hwaiting (2 ^ 64 - 2) overtaking
  rw [Session.drawOrdered_iterate] at hrun
  unfold lapped thirdSend
  rw [hrun]
  decide +kernel

/-- Once round, the ordered channel releases as the first message one that is the third. -/
theorem ordered_prefix_lapped :
    narrow.Fresh .standIn ∧ (narrow.run .standIn lapped).PlainTypes ∧
      ¬ (narrow.run .standIn lapped).right.party.session.deliveredOn .reliableOrdered <+:
        (narrow.run .standIn lapped).left.sentOn .reliableOrdered := by
  refine ⟨narrow_fresh _, ?_, ?_⟩
  · intro r hr
    rcases exists_send_of_mem lapped narrow hr with hold | ⟨now, hmem⟩
    · cases hold
    · unfold lapped at hmem
      rw [List.append_assoc, List.mem_append, List.mem_append, List.mem_replicate] at hmem
      simp only [waiting, thirdSend, overtaking, List.mem_cons, Action.left.injEq, Op.send.injEq,
        List.not_mem_nil, or_false, reduceCtorEq, false_or] at hmem
      rcases hmem with (⟨-, h, -⟩ | ⟨-, h, -⟩) | ⟨-, -, h, -⟩ | ⟨-, h, -⟩
      all_goals
        rw [h]
        decide
  · have hfirst : [(7, [1]), (7, [2])] <+:
        (narrow.run .standIn lapped).left.sentOn .reliableOrdered := by
      have hsends := run_sends_prefix (C := .standIn)
        (List.replicate (2 ^ 64 - 2) thirdSend ++ overtaking) (narrow.run .standIn waiting)
      rw [← run_append_list, ← List.append_assoc] at hsends
      have hsent : (narrow.run .standIn waiting).left.sentOn .reliableOrdered =
          [(7, [1]), (7, [2])] := by decide +kernel
      rw [← hsent]
      exact End.sentOn_prefix hsends .reliableOrdered
    rw [lapped_delivered]
    intro hpre
    have heq := List.prefix_of_prefix_length_le hpre hfirst (by decide)
    exact absurd heq (by decide)

/-- On the reliable channel the receiver has emitted only messages that were sent, and none
more often than it was sent. -/
theorem reliable_at_most_once (hC : C.IdealAead) (h : l.Fresh C) (actions : List Action)
    (hu : (l.run C actions).Unwrapped) (hp : (l.run C actions).PlainTypes) :
    ((l.run C actions).right.party.session.deliveredOn .reliable : Multiset BufferedMessage) ≤
      ((l.run C actions).left.sentOn .reliable : Multiset BufferedMessage) := by
  obtain ⟨L, RL, hacc⟩ := h.run_account hC actions hu hp
  rw [Session.deliveredOn_eq, hacc.left.sentOn_eq, Multiset.coe_le]
  exact hacc.receiver.recorded.subperm

/-- A reliable message that the network delivers twice. -/
def doubled : List Action :=
  [.left (.send { channel := .reliable } 7 [1] 5), .left (.flush 0 6 .sent),
    .left (.pumpReliable 1000), .left (.flush 0 1001 .sent),
    .right (.receive 0 1002), .right (.receive 1 1003), .right (.receive 0 1004)]

theorem reliable_at_most_once_doubled :
    (established.run .standIn doubled).left.wire.length = 2 ∧
      (established.run .standIn doubled).right.party.session.deliveredOn .reliable = [(7, [1])] ∧
      ((established.run .standIn doubled).right.party.session.deliveredOn .reliable :
          Multiset BufferedMessage) ≤
        ((established.run .standIn doubled).left.sentOn .reliable : Multiset BufferedMessage) :=
  ⟨by decide +kernel, by decide +kernel,
    reliable_at_most_once Crypto.standIn_idealAead (established_fresh _) doubled
      (unwrapped_of_length (by decide +kernel) (by decide +kernel))
      (show ∀ r ∈ _, _ by decide +kernel)⟩

/-- A short-lived message of two pieces fills the retransmission queue. -/
def cut : List Action :=
  [.left (.send { channel := .reliable, lifetimeMs := 10 } 7 (List.replicate 1300 1) 5)]

def cutAgain : Action := .left (.send { channel := .reliable } 7 (List.replicate 1300 2) 6)

/-- The pieces expire and the second message is sent. One piece of each message arrives. -/
def mixing : List Action :=
  [.left (.pumpReliable 1000), cutAgain, .left (.flush 0 1001 .sent), .left (.flush 0 1001 .sent),
    .left (.flush 0 1001 .sent), .left (.flush 0 1001 .sent), .right (.receive 0 1002),
    .right (.receive 3 1003)]

def mixed : List Action := cut ++ List.replicate (2 ^ 64 - 1) cutAgain ++ mixing

theorem mixed_delivered :
    (narrow.run .standIn mixed).right.party.session.deliveredOn .reliable =
      [(7, List.replicate 1212 1 ++ List.replicate 88 2)] := by
  have hfull : ∀ p : Party,
      p.Full .reliable ∧ p.side = .client { reliability := { maxPendingMessages := 2 } } →
      (p.send .standIn { channel := .reliable } 7 (List.replicate 1300 2) 6).2 =
          p.mapSession Session.drawFragmentId ∧
        (p.mapSession Session.drawFragmentId).Full .reliable ∧
        (p.mapSession Session.drawFragmentId).side =
          .client { reliability := { maxPendingMessages := 2 } } := by
    rintro p ⟨h, hside⟩
    have hcut : p.Cuttable { channel := .reliable } (List.replicate 1300 2) := by
      refine ⟨by decide +kernel, by decide +kernel, ?_, ?_, by decide +kernel, ?_⟩
      all_goals
        rw [hside]
        decide +kernel
    exact ⟨h.send_fragmented rfl hcut, ⟨h.state, h.pending⟩, hside⟩
  have hcut : (narrow.run .standIn cut).left.party.Full .reliable ∧
      (narrow.run .standIn cut).left.party.side =
        .client { reliability := { maxPendingMessages := 2 } } :=
    ⟨⟨by decide +kernel, by decide +kernel⟩, by decide +kernel⟩
  have hrun := run_laps hfull hcut (2 ^ 64 - 1) mixing
  rw [Session.drawFragmentId_iterate] at hrun
  unfold mixed cutAgain
  rw [hrun]
  decide +kernel

/-- Once round, pieces of two messages are put together to one that was never sent. -/
theorem reliable_at_most_once_mixed :
    narrow.Fresh .standIn ∧ (narrow.run .standIn mixed).PlainTypes ∧
      ¬ ((narrow.run .standIn mixed).right.party.session.deliveredOn .reliable :
          Multiset BufferedMessage) ≤
        ((narrow.run .standIn mixed).left.sentOn .reliable : Multiset BufferedMessage) := by
  have hsends : ∀ r ∈ (narrow.run .standIn mixed).left.sends, r.type = 7 ∧
      (r.payload = List.replicate 1300 1 ∨ r.payload = List.replicate 1300 2) := by
    intro r hr
    rcases exists_send_of_mem mixed narrow hr with hold | ⟨now, hmem⟩
    · cases hold
    · unfold mixed at hmem
      rw [List.append_assoc, List.mem_append, List.mem_append, List.mem_replicate] at hmem
      simp only [cut, cutAgain, mixing, List.mem_cons, Action.left.injEq, Op.send.injEq,
        List.not_mem_nil, or_false, reduceCtorEq, false_or] at hmem
      rcases hmem with ⟨-, ht, hp, -⟩ | ⟨-, -, ht, hp, -⟩ | ⟨-, ht, hp, -⟩
      · exact ⟨ht, Or.inl hp⟩
      · exact ⟨ht, Or.inr hp⟩
      · exact ⟨ht, Or.inr hp⟩
  refine ⟨narrow_fresh _, ?_, ?_⟩
  · intro r hr
    rw [(hsends r hr).1]
    decide
  · rw [mixed_delivered]
    intro hle
    have hmem : (7, List.replicate 1212 1 ++ List.replicate 88 2) ∈
        (narrow.run .standIn mixed).left.sentOn .reliable :=
      Multiset.mem_coe.mp (Multiset.mem_of_le hle (List.mem_singleton_self _))
    obtain ⟨r, hr, heq⟩ := List.mem_map.mp hmem
    have hpay : r.payload = List.replicate 1212 1 ++ List.replicate 88 2 := congrArg Prod.snd heq
    rcases (hsends r (List.mem_filter.mp hr).1).2 with h | h
    · rw [h] at hpay
      exact absurd hpay (by decide +kernel)
    · rw [h] at hpay
      exact absurd hpay (by decide +kernel)

end Link

end SecureCnet
