import SecureCnet.Session.Silent

/-!
# Delivery to the application

What `deliver_application_message` does, channel by channel: it emits messages,
moves the ordered or the sequenced window, and leaves everything else alone.
-/

namespace SecureCnet

/-- The emissions of released messages. -/
def emissions (out : List BufferedMessage) : List Event :=
  out.map fun m => .emitted ⟨.reliableOrdered, m.1, m.2⟩

@[simp] theorem filter_emissions (out : List BufferedMessage) :
    (emissions out).filter Event.isReceipt = emissions out := by
  rw [List.filter_eq_self]
  intro e he
  obtain ⟨m, -, rfl⟩ := List.mem_map.mp he
  rfl

namespace Session

variable {s s' s'' : Session} {es es' : List Event}

/-- The receiving half after the given events, up to the delivery windows. -/
structure Delivers (es : List Event) (s s' : Session) : Prop where
  received : ∀ ch, (s'.reliableFor ch).received = (s.reliableFor ch).received
  reassembler : s'.reassembler = s.reassembler
  state : s'.state = s.state
  trace : s'.trace = s.trace ++ es

theorem Delivers.refl (s : Session) : s.Delivers [] s := ⟨fun _ => rfl, rfl, rfl, by simp⟩

theorem Delivers.trans (h : s.Delivers es s') (h' : s'.Delivers es' s'') :
    s.Delivers (es ++ es') s'' where
  received := fun ch => (h'.received ch).trans (h.received ch)
  reassembler := h'.reassembler.trans h.reassembler
  state := h'.state.trans h.state
  trace := by rw [h'.trace, h.trace, List.append_assoc]

theorem delivers_log (e : Event) (s : Session) : s.Delivers [e] (s.log e) :=
  ⟨fun _ => rfl, rfl, rfl, rfl⟩

theorem Delivers.receipts (h : s.Delivers es s') :
    s'.receipts = s.receipts ++ es.filter Event.isReceipt := by
  rw [Session.receipts, Session.receipts, h.trace, List.filter_append]

theorem delivers_emitAll (out : List BufferedMessage) (s : Session) :
    s.Delivers (emissions out)
        (out.foldl (fun s m => s.emitMessage ⟨.reliableOrdered, m.1, m.2⟩) s) ∧
      (out.foldl (fun s m => s.emitMessage ⟨.reliableOrdered, m.1, m.2⟩) s).ordered = s.ordered := by
  induction out generalizing s with
  | nil => exact ⟨.refl s, rfl⟩
  | cons m out ih =>
    obtain ⟨hd, ho⟩ := ih (s.emitMessage ⟨.reliableOrdered, m.1, m.2⟩)
    exact ⟨(delivers_log _ s).trans hd, ho⟩

/-- Delivery on the ordered channel is a call of the window. -/
theorem deliverApplicationMessage_ordered {seq : UInt64} (hseq : seq ≠ 0) (t : UInt8) (d : Bytes)
    (s : Session) :
    (s.deliverApplicationMessage .reliableOrdered t d seq).1 = .ok () ∧
      s.Delivers (emissions (OrderedReceiveWindow.released (s.ordered.accept seq t d).1))
        (s.deliverApplicationMessage .reliableOrdered t d seq).2 ∧
      (s.deliverApplicationMessage .reliableOrdered t d seq).2.ordered =
        (s.ordered.accept seq t d).2 := by
  have herr : ∀ e, (s.ordered.accept seq t d).1 = .error e → e.code = .queueFull :=
    fun e => OrderedReceiveWindow.accept_error hseq
  have hset : ∀ w, s.Delivers [] { s with ordered := w } :=
    fun w => ⟨fun _ => reliableFor_congr rfl rfl ▸ rfl, rfl, rfl, by simp⟩
  unfold deliverApplicationMessage
  rw [if_pos rfl]
  cases hacc : s.ordered.accept seq t d with
  | mk rc w =>
    cases rc with
    | ok out =>
      obtain ⟨hd, ho⟩ := delivers_emitAll out { s with ordered := w }
      exact ⟨rfl, (hset w).trans hd, ho⟩
    | error e =>
      have hfull := herr e (by rw [hacc])
      exact ⟨by simp [hfull], hset w, rfl⟩

/-- Delivery on another channel emits the message, unless it is out of sequence. -/
theorem deliverApplicationMessage_other {ch : Channel} (hch : ch ≠ .reliableOrdered) (t : UInt8)
    (d : Bytes) (seq : UInt64) (s : Session) :
    (s.deliverApplicationMessage ch t d seq).1 = .ok () ∧
      (s.deliverApplicationMessage ch t d seq).2.ordered = s.ordered ∧
      ∃ es, s.Delivers es (s.deliverApplicationMessage ch t d seq).2 ∧
        (es = [.emitted ⟨ch, t, d⟩] ∨ ch = .sequencedUnreliable ∧ es = []) := by
  unfold deliverApplicationMessage
  rw [if_neg hch]
  split_ifs with hq
  · have hset : s.Delivers [] { s with sequenced := (s.sequenced.accept seq).2 } :=
      ⟨fun _ => reliableFor_congr rfl rfl ▸ rfl, rfl, rfl, by simp⟩
    dsimp only
    split_ifs
    · exact ⟨rfl, rfl, _, hset.trans (delivers_log _ _), Or.inl (by rw [hq]; rfl)⟩
    · exact ⟨rfl, rfl, [], hset, Or.inr ⟨hq, rfl⟩⟩
  · exact ⟨rfl, rfl, _, delivers_log _ s, Or.inl rfl⟩

end Session

end SecureCnet
