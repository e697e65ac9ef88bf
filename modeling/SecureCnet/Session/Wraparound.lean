import SecureCnet.Session.Send

/-!
# Sends that only draw numbers

A send that finds the retransmission queue of its channel full is refused, but not
before it has drawn its numbers. Repeated often enough, it takes a 64-bit counter once
round, and nothing else of the session changes.
-/

namespace SecureCnet

variable {C : Crypto}

namespace Session

theorem setReliable_reliableFor (ch : Channel) (s : Session) :
    s.setReliable ch (s.reliableFor ch) = s := by
  unfold setReliable reliableFor
  split_ifs <;> rfl

theorem drawOrdered_iterate (n : ℕ) (s : Session) : drawOrdered^[n] s = { s with
    nextOrderedSequence := s.nextOrderedSequence + UInt64.ofNat n
    trace := s.trace ++ List.replicate n (.drew .ordered) } := by
  induction n with
  | zero => simp
  | succ n ih =>
    rw [Function.iterate_succ_apply', ih, UInt64.ofNat_add, List.replicate_succ']
    simp [drawOrdered, log, UInt64.add_assoc]

theorem drawFragmentId_iterate (n : ℕ) (s : Session) : drawFragmentId^[n] s = { s with
    nextFragmentMessageId := s.nextFragmentMessageId + UInt64.ofNat n
    trace := s.trace ++ List.replicate n (.drew .fragment) } := by
  induction n with
  | zero => simp
  | succ n ih =>
    rw [Function.iterate_succ_apply', ih, UInt64.ofNat_add, List.replicate_succ']
    simp [drawFragmentId, log, UInt64.add_assoc]

end Session

namespace Party

variable {p : Party} {ch : Channel} {o : SendOptions} {t : UInt8} {payload : Bytes} {now : UInt64}

/-- An established session whose retransmission queue takes no more messages. -/
structure Full (ch : Channel) (p : Party) : Prop where
  state : p.session.state = .established
  pending : (p.session.reliableFor ch).cfg.maxPendingMessages.toNat ≤
    (p.session.reliableFor ch).pending.length

theorem Full.sendReliableMessage (h : p.Full ch) (t : UInt8) (data : Bytes)
    (priority : SendPriority) (lifetimeMs now : UInt64) :
    ∃ e, p.sendReliableMessage C ch t data priority lifetimeMs now = (.error e, p) := by
  have hfull : (p.session.reliableFor ch).enqueue t data priority lifetimeMs now =
      (fail .queueFull "reliable queue full", p.session.reliableFor ch) := if_pos h.pending
  have hsame : p.mapSession (Session.setReliable ch (p.session.reliableFor ch)) = p := by
    unfold mapSession
    rw [Session.setReliable_reliableFor]
  unfold Party.sendReliableMessage
  split_ifs
  · exact ⟨_, rfl⟩
  · refine ⟨⟨.queueFull, "reliable queue full"⟩, ?_⟩
    rw [hfull]
    exact Prod.ext rfl hsame

/-- An ordered message is refused after it took its number. -/
theorem Full.send_ordered (h : p.Full .reliableOrdered) (hch : o.channel = .reliableOrdered)
    (hlen : payload.length ≤ NetConfig.maxOrderedMessageBytes) :
    (p.send C o t payload now).2 = p.mapSession Session.drawOrdered := by
  have hnext : (p.mapSession Session.drawOrdered).Full .reliableOrdered := ⟨h.state, h.pending⟩
  have hinline : ¬ o.channel.maxInlinePayloadSize < payload.length := by
    rw [hch]
    exact not_lt.mpr hlen
  have hshort : ¬ 0xFFFF < payload.length := by
    simp at hlen
    omega
  unfold send
  simp only [h.state, ne_eq, not_true_eq_false, if_false, hshort, hinline]
  rw [hch]
  simp only [reduceCtorEq, if_false, if_true]
  rw [if_neg (by decide)]
  cases writeOrderedPayload ⟨NetConfig.maxReliableMessageBytes, []⟩
      p.session.nextOrderedSequence payload with
  | error e => rfl
  | ok w =>
    obtain ⟨e, he⟩ := hnext.sendReliableMessage (C := C) t w.out o.priority o.lifetimeMs now
    simp only [he]

/-- The payload is cut into pieces that the sender's limits allow. -/
structure Cuttable (o : SendOptions) (payload : Bytes) (p : Party) : Prop where
  large : o.channel.maxInlinePayloadSize < payload.length
  wire : payload.length ≤ 0xFFFF
  enabled : p.side.fragmentation.enabled = true
  policy : payload.length ≤ p.side.fragmentation.maxReassembledMessageBytes.toNat
  count : fragmentCountForLength (UInt16.ofNat payload.length) ≠ 0 ∧
    fragmentCountForLength (UInt16.ofNat payload.length) ≤
      p.side.fragmentation.maxFragmentsPerMessage

/-- The first piece of a reliable message is refused after the message took its number. -/
theorem Full.send_fragmented (h : p.Full .reliable) (hch : o.channel = .reliable)
    (hcut : p.Cuttable o payload) :
    (p.send C o t payload now).2 = p.mapSession Session.drawFragmentId := by
  have hnext : (p.mapSession Session.drawFragmentId).Full .reliable := ⟨h.state, h.pending⟩
  have hpos : 0 < (fragmentCountForLength (UInt16.ofNat payload.length)).toNat := by
    have hne := hcut.count.1
    rw [← UInt16.toNat_inj.ne] at hne
    exact Nat.pos_of_ne_zero hne
  obtain ⟨n, hn⟩ := Nat.exists_eq_succ_of_ne_zero hpos.ne'
  have hpieces : pieceIndices (fragmentCountForLength (UInt16.ofNat payload.length)) =
      0 :: (pieceIndices (fragmentCountForLength (UInt16.ofNat payload.length))).tail := by
    unfold pieceIndices
    rw [hn, List.range_succ_eq_map]
    rfl
  have hfirst : ∀ m : FragmentedMessage, ∃ e,
      (p.mapSession Session.drawFragmentId).sendPiece C o now m 0 =
        (.error e, p.mapSession Session.drawFragmentId) := by
    intro m
    unfold sendPiece
    dsimp only
    split
    · exact ⟨_, rfl⟩
    · rw [hch, if_pos (by decide)]
      exact hnext.sendReliableMessage _ _ _ _ _
  unfold send
  rw [if_neg (not_not.mpr h.state), if_neg (by rw [hch]; decide), if_neg (not_lt.mpr hcut.wire),
    if_pos hcut.large]
  unfold sendFragmented
  rw [if_neg (by simp [hcut.enabled]), if_neg (by rw [hch]; decide),
    if_neg (not_lt.mpr hcut.policy)]
  dsimp only
  rw [if_neg (by simpa using hcut.count), drawDeliverySequence, hch]
  simp only [reduceCtorEq, if_false]
  rw [← hch, hpieces, sendPieces]
  obtain ⟨e, he⟩ := hfirst ⟨p.session.nextFragmentMessageId, 0, o.channel, t, payload⟩
  rw [he]

end Party

end SecureCnet
