import SecureCnet.Link.Ledger
import SecureCnet.Session.Deliver

/-!
# The arrival of a frame

What the dispatcher does with a frame of the ledger, as an equation, and what handing
a message to `deliver_application_message` adds to the record.
-/

namespace SecureCnet

namespace Event

/-- The message emitted on a channel. -/
def emittedOn (ch : Channel) : Event → Option BufferedMessage
  | .emitted msg => if msg.channel = ch then some (msg.type, msg.data) else none
  | _ => none

end Event

/-- The messages released on the ordered channel. -/
def orderedOut (es : List Event) : List BufferedMessage :=
  es.filterMap (Event.emittedOn .reliableOrdered)

@[simp] theorem orderedOut_append (es es' : List Event) :
    orderedOut (es ++ es') = orderedOut es ++ orderedOut es' := List.filterMap_append

@[simp] theorem orderedOut_emissions (out : List BufferedMessage) :
    orderedOut (emissions out) = out := by
  induction out with
  | nil => rfl
  | cons m out ih =>
    change m :: orderedOut (emissions out) = m :: out
    rw [ih]

namespace Session

/-- A message goes to `deliver_application_message`. -/
def deliverMessage (m : FragmentedMessage) (s : Session) : Result Unit × Session :=
  s.deliverApplicationMessage m.channel m.type m.payload m.deliverySequence

variable {f : ℕ → Option BufferedMessage} {N : ℕ} {s : Session} {m : FragmentedMessage}

/-- Delivery never fails on a numbered message, and emits on its channel only. -/
theorem deliverMessage_spec (hf : ∀ n x, f n = some x → n < N) (hN : N < 2 ^ 64)
    {out : List BufferedMessage} (hagree : s.ordered.Agrees f out)
    (hord : m.channel = .reliableOrdered →
      m.deliverySequence ≠ 0 ∧ f m.deliverySequence.toNat = some (m.type, m.payload)) :
    (s.deliverMessage m).1 = .ok () ∧ ∃ em, s.Delivers em (s.deliverMessage m).2 ∧
      (∀ e ∈ em, ∃ t d, e = .emitted ⟨m.channel, t, d⟩) ∧
      (m.channel = .reliable → em = [.emitted ⟨.reliable, m.type, m.payload⟩]) ∧
      (s.deliverMessage m).2.ordered.Agrees f (out ++ orderedOut em) := by
  unfold deliverMessage
  by_cases hch : m.channel = .reliableOrdered
  · obtain ⟨hseq, hsend⟩ := hord hch
    rw [hch]
    obtain ⟨hok, hdel, hwin⟩ := deliverApplicationMessage_ordered hseq m.type m.payload s
    obtain ⟨rel, hrel, hagree'⟩ := OrderedReceiveWindow.accept_agrees hf hN hagree hsend
    have hby : OrderedReceiveWindow.released
        (s.ordered.accept m.deliverySequence m.type m.payload).1 = rel := by
      rcases hrel with h | ⟨⟨e, h⟩, rfl⟩
      · rw [h]
        rfl
      · rw [h]
        rfl
    refine ⟨hok, _, hdel, ?_, by simp, ?_⟩
    · intro e he
      obtain ⟨x, -, rfl⟩ := List.mem_map.mp he
      exact ⟨x.1, x.2, rfl⟩
    · rw [hwin, hby, orderedOut_emissions]
      exact hagree'
  · obtain ⟨hok, hwin, em, hdel, hem⟩ :=
      deliverApplicationMessage_other hch m.type m.payload m.deliverySequence s
    have hout : orderedOut em = [] := by
      rcases hem with rfl | ⟨-, rfl⟩
      · simp [orderedOut, Event.emittedOn, hch]
      · rfl
    refine ⟨hok, em, hdel, ?_, ?_, ?_⟩
    · intro e he
      rcases hem with rfl | ⟨-, rfl⟩
      · exact ⟨_, _, List.mem_singleton.mp he⟩
      · cases he
    · intro hrel
      rcases hem with rfl | ⟨hq, -⟩
      · rw [hrel]
      · rw [hrel] at hq
        cases hq
    · rw [hwin, hout, List.append_nil]
      exact hagree

end Session

namespace Party

variable {C : Crypto} {p : Party}

/-- Hand a message over; a failure is a violation. -/
def handOver (C : Crypto) (now : UInt64) (m : FragmentedMessage) (p : Party) : Party :=
  orViolation C now .protocolError (p.onSession (Session.deliverMessage m))

theorem handOver_eq {now : UInt64} {m : FragmentedMessage}
    (h : (p.session.deliverMessage m).1 = .ok ()) :
    p.handOver C now m = { p with session := (p.session.deliverMessage m).2 } := by
  unfold handOver onSession
  cases hd : p.session.deliverMessage m with
  | mk rc s =>
    rw [hd] at h
    cases h
    rfl

/-- A message in one frame is handed over, unless a reliable window refuses its id. -/
theorem dispatch_inline {o : SendOptions} {t : UInt8} {payload : Bytes} {s : Session}
    (hok : SendOk o payload s) (hin : payload.length ≤ o.channel.maxInlinePayloadSize)
    (ht : t ≠ ControlType.fragment.code) (now : UInt64)
    (hid : o.channel.isReliable = true → (s.reliableFor o.channel).nextMessageId ≠ 0) (p : Party) :
    p.dispatchMessageFrame C now (inlineFrame o.channel t payload s) =
      if o.channel.isReliable then
        if ((p.session.reliableFor o.channel).received.accept
            (s.reliableFor o.channel).nextMessageId).1 then
          ((p.accepting C o.channel (s.reliableFor o.channel).nextMessageId).log
              (.passed o.channel (s.reliableFor o.channel).nextMessageId t payload)).handOver C now
            (s.fragmentedMessage o.channel t payload)
        else p.accepting C o.channel (s.reliableFor o.channel).nextMessageId
      else p.handOver C now (s.fragmentedMessage o.channel t payload) := by
  have happ := hok.application
  have hseq := hok.sequenced hin
  have hord := hok.ordered hin
  have hlen := hok.short
  have hsmall : payload.length ≤ 0xFFF0 := hin.trans (by cases o.channel <;> decide)
  have huser : ∀ body, ¬(t = ControlType.fragment.code ∧ looksLikeFragment body = true) :=
    fun _ h => ht h.1
  generalize o.channel = ch at happ hseq hord hid ⊢
  cases ch with
  | control => exact absurd rfl happ
  | unreliable => rfl
  | sequencedUnreliable =>
    have hread : readSequencedPayload (be64 s.nextSequencedSequence ++ payload) =
        .ok (s.nextSequencedSequence, payload) := readEnvelope_eq_ok.mpr ⟨rfl, hseq rfl, hlen⟩
    simp only [inlineFrame, dispatchMessageFrame, hread]
    rfl
  | reliable =>
    have hdisp := @dispatch_reliable C _ .reliable t payload now rfl (hid rfl) hlen p
    rw [dispatchBody_user now (huser payload), dispatchUserData,
      if_neg (show ¬Channel.reliable = .reliableOrdered by simp)] at hdisp
    exact hdisp
  | reliableOrdered =>
    have hread : readOrderedPayload (be64 s.nextOrderedSequence ++ payload) =
        .ok (s.nextOrderedSequence, payload) := readEnvelope_eq_ok.mpr ⟨rfl, hord rfl, hlen⟩
    have hdisp := @dispatch_reliable C _ .reliableOrdered t (be64 s.nextOrderedSequence ++ payload)
      now rfl (hid rfl) (by simp; omega) p
    rw [dispatchBody_user now (huser _), dispatchUserData, if_pos rfl, hread] at hdisp
    exact hdisp

end Party

end SecureCnet
