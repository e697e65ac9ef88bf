import SecureCnet.Link.Ledger
import SecureCnet.Session.Continuity

/-!
# What a sender puts on the wire

Every frame that waits in a retransmission queue, in a packet queue or on the wire
comes from the ledger or acknowledges a frame that was received. This holds through
every operation of a session, and for every datagram a link carries.
-/

namespace SecureCnet

/-- The frame that acknowledges a message. -/
def ackFrame (ch : Channel) (id : UInt64) : MsgView :=
  ⟨.control, ControlType.reliableAck.code, encodeAck ch id⟩

/-- The frame acknowledges a message the history acknowledges. -/
def IsAck (trace : List Event) (msg : MsgView) : Prop :=
  ∃ ch id, msg = ackFrame ch id ∧ Event.ackQueued ch id ∈ trace

/-- A datagram of the session: its message packets hold one frame each, and `Φ` holds of it. -/
def Carries (C : Crypto) (Φ : MsgView → Prop) (connId : UInt64) (key : Block 32)
    (bytes : Bytes) : Prop :=
  isHandshake bytes = true ∨ ∃ kind encrypted payload cid seq k,
    buildPacket C kind encrypted payload cid seq k = .ok bytes ∧
      (encrypted = true → cid = connId ∧ k = key) ∧
      (kind = .message → encrypted = true ∧ ∃ msg : MsgView, payload = msg.encode ∧ Φ msg)

theorem Carries.mono {C : Crypto} {Φ Ψ : MsgView → Prop} {connId : UInt64} {key : Block 32}
    {bytes : Bytes} (h : Carries C Φ connId key bytes) (hΦ : ∀ msg, Φ msg → Ψ msg) :
    Carries C Ψ connId key bytes := by
  rcases h with hs | ⟨kind, encrypted, payload, cid, seq, k, hb, henc, hmsg⟩
  · exact Or.inl hs
  · refine Or.inr ⟨kind, encrypted, payload, cid, seq, k, hb, henc, ?_⟩
    intro hk
    obtain ⟨he, msg, hp, hm⟩ := hmsg hk
    exact ⟨he, msg, hp, hΦ msg hm⟩

theorem IsAck.mono {trace trace' : List Event} {msg : MsgView} (h : IsAck trace msg)
    (ht : trace <+: trace') : IsAck trace' msg := by
  obtain ⟨ch, id, rfl, hmem⟩ := h
  exact ⟨ch, id, rfl, ht.subset hmem⟩

namespace Party

variable {C : Crypto} {A : Channel → UInt64 → Prop} {p p' q : Party}

/-- All frames a party holds are as `Φ` says or acknowledge something it received. -/
structure Sound (C : Crypto) (Φ : MsgView → Prop) (cid : UInt64) (K : SessionKeys)
    (p : Party) : Prop where
  contents : ∀ ch, ch.isReliable = true → ∀ x ∈ (p.session.reliableFor ch).contents,
    Φ ⟨ch, x.2.1, x.2.2⟩ ∧ ∃ n < p.session.drawn (.message ch), x.1 = UInt64.ofNat (1 + n)
  keys : p.session.keys = K ∨ p.session.keys.empty = true ∧ p.Dead
  connId : p.session.connId = cid
  queue : ∀ pkt ∈ p.net.pending, pkt.ownerConnId = p.ownerConnId →
    Carries C (fun msg => Φ msg ∨ IsAck p.session.trace msg) cid K.tx pkt.bytes

variable {Φ Ψ : MsgView → Prop} {cid : UInt64} {K : SessionKeys} {payload : Bytes}
  {priority : SendPriority} {ch : Channel} {m : PendingReliableMessage} {rs : ReliableSession}

theorem Sound.timed (h : Sound C Φ cid K p) (budget : SendBudget) (lastSendMs : UInt64) :
    Sound C Φ cid K { p with session := { p.session with budget, lastSendMs } } where
  contents := by
    intro ch hch
    have hcontents := h.contents ch hch
    cases ch <;> exact hcontents
  keys := h.keys
  connId := h.connId
  queue := h.queue

theorem Sound.mono (h : Sound C Φ cid K p) (hΦ : ∀ msg, Φ msg → Ψ msg) :
    Sound C Ψ cid K p where
  contents := fun ch hch x hx => ⟨hΦ _ (h.contents ch hch x hx).1, (h.contents ch hch x hx).2⟩
  keys := h.keys
  connId := h.connId
  queue := fun pkt hp ho => (h.queue pkt hp ho).mono fun msg hm => hm.imp (hΦ msg) id

theorem Change.dead (h : Change C A p p') (hd : p.Dead) : p'.Dead := by
  obtain ⟨hside, hstate, hsock⟩ := hd
  cases h with
  | session s h => exact ⟨hside, h.closed hstate, hsock⟩
  | dies _ h => exact h.dead
  | ends config hs hclosing =>
    rw [hstate] at hclosing
    cases hclosing
  | queue _ kind payload priority rc h hk hm => exact h.silent.dead ⟨hside, hstate, hsock⟩
  | ack q ch id h =>
    obtain ⟨hs, hst, hso⟩ := h.silent.dead ⟨hside, hstate, hsock⟩
    exact ⟨hs, hst, hso⟩
  | plain _ h =>
    obtain ⟨s, net, rfl, hs, ho, -⟩ := h.shape
    refine ⟨hside, ?_, ho.trans hsock⟩
    rcases hs with rfl | rfl <;> exact hstate

/-- Outside of death the message counters stand still. -/
theorem Change.sameCounters (h : Change C A p p') :
    p'.Dead ∨ p.session.SameCounters p'.session := by
  cases h with
  | session s h =>
    obtain ⟨es, he, hq⟩ := h.trace
    exact Or.inr ⟨h.numbers, fun k _ => Session.drawn_of_not_mem he fun hm => hq _ hm⟩
  | dies _ h => exact Or.inl h.dead
  | ends config hs hstate =>
    rw [ends_eq hstate]
    exact Or.inr ⟨rfl, fun k _ => Session.drawn_of_not_mem rfl (by simp)⟩
  | queue _ kind payload priority rc h hk hm => exact Or.inr h.sameCounters
  | ack q ch id h =>
    have hc := h.sameCounters
    refine Or.inr ⟨hc.numbers, fun k hk => ?_⟩
    rw [← hc.drawn k hk]
    exact Session.drawn_of_not_mem rfl (by simp)
  | plain _ h =>
    obtain ⟨s, net, rfl, hs, -⟩ := h.shape
    right
    rcases hs with rfl | rfl
    · exact ⟨rfl, fun _ _ => rfl⟩
    · refine ⟨rfl, fun k hk => Session.drawn_of_not_mem rfl ?_⟩
      simpa using hk

theorem Sound.queue_mono (h : Sound C Φ cid K p) {trace : List Event}
    (ht : p.session.trace <+: trace) {pkt : PendingPacket} (hp : pkt ∈ p.net.pending)
    (ho : pkt.ownerConnId = p.ownerConnId) :
    Carries C (fun msg => Φ msg ∨ IsAck trace msg) cid K.tx pkt.bytes :=
  (h.queue pkt hp ho).mono fun _ hm => hm.imp id fun ha => ha.mono ht

theorem ownerConnId_congr (hs : p'.side = p.side) (hc : p'.session.connId = p.session.connId) :
    p'.ownerConnId = p.ownerConnId := by
  unfold ownerConnId
  rw [hs, hc]

/-- Packets, pending messages and history grow together in one way. -/
theorem Sound.of_le (h : Sound C Φ cid K p) (hside : p'.side = p.side)
    (hc : p'.session.connId = p.session.connId) (ht : p.session.trace <+: p'.session.trace)
    (hk : p'.session.keys = p.session.keys) (hd : p.Dead → p'.Dead)
    (hcont : ∀ ch, ch.isReliable = true →
      (p'.session.reliableFor ch).contents ⊆ (p.session.reliableFor ch).contents)
    (hq : ∀ pkt ∈ p'.net.pending, pkt.ownerConnId = p.ownerConnId → pkt ∈ p.net.pending ∨
      Carries C (fun msg => Φ msg ∨ IsAck p'.session.trace msg) cid K.tx pkt.bytes) :
    Sound C Φ cid K p' where
  contents := by
    intro ch hch x hx
    obtain ⟨hΦ, n, hn, hid⟩ := h.contents ch hch x (hcont ch hch hx)
    exact ⟨hΦ, n, hn.trans_le (ht.sublist.count_le _), hid⟩
  keys := by
    rw [hk]
    exact h.keys.imp id fun hdead => ⟨hdead.1, hd hdead.2⟩
  connId := hc.trans h.connId
  queue := by
    intro pkt hp ho
    rw [ownerConnId_congr hside hc] at ho
    rcases hq pkt hp ho with hold | hnew
    · exact h.queue_mono ht hold ho
    · exact hnew

theorem Sound.keys_eq (h : Sound C Φ cid K p) (hkeys : p.session.keys.empty = false) :
    p.session.keys = K := by
  rcases h.keys with hK | ⟨hempty, -⟩
  · exact hK
  · rw [hempty] at hkeys
    cases hkeys

/-- Queueing a packet whose frames `Φ` allows. -/
theorem Sound.queued {kind : PacketKind} {rc : Result Unit} (h : Sound C Φ cid K p)
    (hq : Queued C p kind payload priority rc p') (hm : rc = .ok () → kind = .message → ∃ msg :
      MsgView, payload = msg.encode ∧ (Φ msg ∨ IsAck p'.session.trace msg)) :
    Sound C Φ cid K p' := by
  have ht := hq.trace_prefix
  have hd := hq.silent.dead
  have hsame := hq.sameState
  have hcont : ∀ ch, ch.isReliable = true →
      (p'.session.reliableFor ch).contents ⊆ (p.session.reliableFor ch).contents := by
    intro ch _
    rw [hq.reliableFor_eq ch]
    exact List.Subset.refl _
  cases hq with
  | refused e => exact h
  | burned e => exact h.of_le rfl rfl ht rfl hd hcont fun pkt hp _ => Or.inl hp
  | dropped e => exact h.of_le rfl rfl ht rfl hd hcont fun pkt hp _ => Or.inl hp
  | queued bytes hbuild hkeys =>
    refine h.of_le rfl rfl ht rfl hd hcont ?_
    intro pkt hp ho
    rcases mem_push.mp hp with rfl | hold
    · right
      refine Or.inr ⟨kind, true, payload, _, _, _, hbuild, fun _ => ⟨h.connId, by rw [h.keys_eq hkeys]⟩,
        ?_⟩
      intro hk
      exact ⟨rfl, hm rfl hk⟩
    · exact Or.inl hold

theorem Sound.change (h : Sound C Φ cid K p) (hc : Change C A p p') : Sound C Φ cid K p' := by
  have ht := hc.trace_prefix
  have hd := hc.dead
  cases hc with
  | session s hs =>
    exact h.of_le rfl hs.connId ht hs.keys hd (fun ch _ => hs.contents ch) fun pkt hp _ => Or.inl hp
  | dies _ hs =>
    refine ⟨?_, Or.inr ⟨?_, hs.dead⟩, hs.connId.trans h.connId, ?_⟩
    · intro ch _ x hx
      rw [hs.contents ch] at hx
      cases hx
    · rw [hs.keys]
      exact SessionKeys.empty_cleared
    · intro pkt hp
      rw [hs.queue] at hp
      cases hp
  | ends config hs hstate =>
    rw [ends_eq hstate] at ht hd ⊢
    exact h.of_le rfl rfl ht rfl hd (fun ch _ => List.Subset.refl _) fun pkt hp _ => Or.inl hp
  | queue _ kind payload priority rc hq hk hm =>
    refine h.queued hq ?_
    intro hok hkind
    obtain ⟨msg, hpay, hch, id, hpend⟩ := hm hok hkind
    exact ⟨msg, hpay, Or.inl (h.contents msg.channel hch _ hpend).1⟩
  | ack q ch id hq =>
    have hfor : ∀ c, c.isReliable = true →
        ((q.log (.ackQueued ch id)).session.reliableFor c).contents ⊆
          (p.session.reliableFor c).contents := by
      intro c _
      unfold log
      rw [mapSession_session, Session.reliableFor_log, hq.reliableFor_eq c]
      exact List.Subset.refl _
    have hsame := hq.sameState
    obtain ⟨n, es, net, heq, ho, -⟩ := hq.upToNumber
    have hconn : q.session.connId = p.session.connId := by rw [heq]
    have hk : q.session.keys = p.session.keys := by rw [heq]
    refine h.of_le hsame.side hconn ht hk hd hfor ?_
    intro pkt hp ho
    cases hq with
    | queued bytes hbuild hkeys =>
      rcases mem_push.mp hp with rfl | hold
      · right
        refine Or.inr ⟨.message, true, _, _, _, _, hbuild,
          fun _ => ⟨h.connId, by rw [h.keys_eq hkeys]⟩, fun _ => ⟨rfl, ackFrame ch id, rfl, ?_⟩⟩
        exact Or.inr ⟨ch, id, rfl, List.mem_append_right _ (List.mem_singleton_self _)⟩
      · exact Or.inl hold
  | plain _ hp =>
    obtain ⟨s, net, rfl, hs, ho, hq⟩ := hp.shape
    have hplain : ∀ pkt ∈ net.pending, pkt.ownerConnId = p.ownerConnId → pkt ∈ p.net.pending ∨
        Carries C (fun msg => Φ msg ∨ IsAck s.trace msg) cid K.tx pkt.bytes := by
      intro pkt hp _
      rcases hq pkt hp with hold | ⟨payload, c, seq, k, hb⟩
      · exact Or.inl hold
      · exact Or.inr (Or.inr ⟨.close, false, payload, c, seq, k, hb, by simp, by simp⟩)
    rcases hs with rfl | rfl
    · exact h.of_le rfl rfl ht rfl hd (fun _ _ => List.Subset.refl _) hplain
    · exact h.of_le rfl rfl ht rfl hd (fun _ _ => List.Subset.refl _) hplain

theorem Sound.steps (h : Sound C Φ cid K p) (hs : Steps C A p p') : Sound C Φ cid K p' := by
  induction hs with
  | refl => exact h
  | tail _ hc ih => exact ih.change hc

theorem Sound.shrink (h : Sound C Φ cid K p) {net : Transport}
    (ho : net.sockOpen = p.net.sockOpen) (hq : net.pending ⊆ p.net.pending) :
    Sound C Φ cid K { p with net } :=
  h.of_le rfl rfl (List.prefix_refl _) rfl (fun hd => ⟨hd.1, hd.2.1, ho.trans hd.2.2⟩)
    (fun _ _ => List.Subset.refl _) fun _ hp _ => Or.inl (hq hp)

/-- A message joins the retransmission queue. -/
theorem Sound.enqueued (h : Sound C Φ cid K p) (henq : Enqueues p ch m rs)
    (hnum : p.session.Numbered) (hΦ : Φ ⟨ch, m.userType, m.encodedPayload⟩) :
    Sound C Φ cid K (p.enqueued ch rs) where
  contents := by
    intro ch' hch' x hx
    have hfor : (p.enqueued ch rs).session.reliableFor ch' =
        (p.session.setReliable ch rs).reliableFor ch' := Session.reliableFor_log _ _ _
    rw [hfor, Session.reliableFor_setReliable] at hx
    rw [drawn_enqueued]
    split_ifs at hx with hsame
    · obtain rfl : ch' = ch := by
        have hch := henq.channel
        cases ch <;> cases ch' <;> simp_all [Channel.isReliable]
      unfold ReliableSession.contents at hx
      rw [henq.pending] at hx
      obtain ⟨y, hy, rfl⟩ := List.mem_map.mp hx
      rcases ReliableSession.mem_insertPending.mp hy with rfl | hold
      · refine ⟨hΦ, p.session.drawn (.message ch'), by simp, ?_⟩
        rw [← hnum.message ch' hch']
        exact henq.messageId
      · obtain ⟨hold, n, hn, hid⟩ := h.contents ch' hch' _ (List.mem_map_of_mem hold)
        exact ⟨hold, n, by omega, hid⟩
    · obtain ⟨hold, n, hn, hid⟩ := h.contents ch' hch' x hx
      exact ⟨hold, n, by omega, hid⟩
  keys := by
    have hk : (p.enqueued ch rs).session.keys = p.session.keys := by simp [Party.enqueued, log]
    rw [hk]
    exact h.keys.imp id fun hdead => ⟨hdead.1, (enqueued_silent henq.received).dead hdead.2⟩
  connId := by
    rw [← h.connId]
    simp [Party.enqueued, log]
  queue := by
    intro pkt hp ho
    have hown : (p.enqueued ch rs).ownerConnId = p.ownerConnId :=
      ownerConnId_congr rfl (by simp [Party.enqueued, log])
    rw [hown] at ho
    refine h.queue_mono ?_ hp ho
    rw [enqueued_trace]
    exact List.prefix_append _ _

theorem Queued.pending_of_error {kind : PacketKind} {e : Failure}
    (h : Queued C p kind payload priority (.error e) q) : q.net.pending = p.net.pending := by
  cases h <;> rfl

/-- A message that could not be queued is gone again. -/
theorem withdrawn_contents (henq : Enqueues p ch m rs) (hq : q.session.reliableFor ch = rs) (hother
      : ∀ c, ¬(c = .reliableOrdered ↔ ch = .reliableOrdered) → q.session.reliableFor c =
      p.session.reliableFor c)
    (hfresh : ∀ x ∈ (p.session.reliableFor ch).pending, x.messageId ≠ m.messageId) (now : UInt64)
    (ch' : Channel) :
    ((q.session.setReliable ch
        ((q.session.reliableFor ch).acknowledge m.messageId now).2).reliableFor ch').contents =
      (p.session.reliableFor ch').contents := by
  rw [Session.reliableFor_setReliable]
  split_ifs with hsame
  · have hfor : p.session.reliableFor ch' = p.session.reliableFor ch := by
      simp [Session.reliableFor, hsame]
    unfold ReliableSession.contents
    rw [ReliableSession.acknowledge_pending, hq, henq.pending,
      ReliableSession.eraseP_insertPending hfresh, hfor]
  · rw [hother ch' hsame]

theorem Sound.withdrawn {e : Failure} {now : UInt64} (h : Sound C Φ cid K p)
    (henq : Enqueues p ch m rs) (hnum : p.session.Numbered)
    (hb : p.session.drawn (.message ch) + 1 < 2 ^ 64)
    (hq : Queued C (p.enqueued ch rs) .message payload priority (.error e) q) :
    Sound C Φ cid K (q.mapSession fun s =>
      s.setReliable ch ((s.reliableFor ch).acknowledge m.messageId now).2) := by
  -- The id is new, so the message found under it is the one just put in.
  have hfresh : ∀ x ∈ (p.session.reliableFor ch).pending, x.messageId ≠ m.messageId := by
    intro x hx heq
    obtain ⟨-, n, hn, hid⟩ := h.contents ch henq.channel _ (List.mem_map_of_mem hx)
    have hid' : x.messageId = UInt64.ofNat (1 + n) := hid
    rw [heq, henq.messageId, hnum.message ch henq.channel] at hid'
    have hnat := congrArg UInt64.toNat hid'
    rw [UInt64.toNat_ofNat', UInt64.toNat_ofNat', Nat.mod_eq_of_lt (by omega),
      Nat.mod_eq_of_lt (by omega)] at hnat
    omega
  have hother : ∀ c, ¬(c = .reliableOrdered ↔ ch = .reliableOrdered) →
      q.session.reliableFor c = p.session.reliableFor c := by
    intro c hc
    rw [hq.reliableFor_eq c]
    refine (Session.reliableFor_log _ _ _).trans ?_
    rw [mapSession_session, Session.reliableFor_setReliable, if_neg hc]
  have hcont := withdrawn_contents henq
    ((hq.reliableFor_eq ch).trans (enqueued_reliableFor ch rs p)) hother hfresh now
  have hside : q.side = p.side := hq.sameState.side
  obtain ⟨n, es, net, heq, ho, -⟩ := hq.upToNumber
  have hpend := hq.pending_of_error
  have ht := hq.trace_prefix
  rw [enqueued_trace] at ht
  have hsil : p.Silent q := (enqueued_silent henq.received).trans hq.silent
  refine h.of_le hside ?_ ?_ ?_ ?_ (fun ch' _ => ?_) ?_
  · rw [heq]
    simp [Party.enqueued, log]
  · simpa using (List.prefix_append _ _).trans ht
  · rw [heq]
    simp [Party.enqueued, log]
  · intro hd
    obtain ⟨hs, hst, hso⟩ := hsil.dead hd
    exact ⟨hs, by simpa using hst, hso⟩
  · rw [mapSession_session, hcont ch']
    exact List.Subset.refl _
  · intro pkt hp _
    left
    rw [mapSession_net, hpend] at hp
    exact hp

theorem Sound.draw {f : Session → Session} (h : Sound C Φ cid K p)
    (hc : (f p.session).connId = p.session.connId) (hk : (f p.session).keys = p.session.keys)
    (hr : (f p.session).reliable = p.session.reliable)
    (hor : (f p.session).orderedReliable = p.session.orderedReliable)
    (ht : p.session.trace <+: (f p.session).trace) (hs : (f p.session).state = p.session.state) :
    Sound C Φ cid K (p.mapSession f) := by
  refine h.of_le rfl hc ht hk (fun hd => ⟨hd.1, hs.trans hd.2.1, hd.2.2⟩) ?_
    fun pkt hp _ => Or.inl hp
  intro ch _
  rw [mapSession_session, Session.reliableFor_congr hr hor]
  exact List.Subset.refl _

/-- A send adds its own frames to those the party holds. -/
theorem Sound.sending {msgs : List MsgView} (h : Sound C Φ cid K p)
    (hs : Sending C priority p msgs q) (hnum : p.session.Numbered)
    (hb : Ledger.Bounded q.session.trace) : Sound C (fun msg => Φ msg ∨ msg ∈ msgs) cid K q := by
  induction hs with
  | start => exact h.mono fun _ => Or.inl
  | drawFragmentId _ ih | drawOrdered _ ih | drawSequenced _ ih =>
    refine (ih (hb.of_prefix (List.prefix_append _ _))).draw rfl rfl rfl rfl (List.prefix_append _ _) rfl
  | @burned msgs q hs ch hch ih =>
    rw [enqueued_trace] at hb
    have hq := ih (hb.of_prefix (List.prefix_append _ _))
    refine hq.of_le rfl ?_ ?_ ?_ ?_ ?_ fun pkt hp _ => Or.inl hp
    · simp [Party.enqueued, log]
    · rw [enqueued_trace]
      exact List.prefix_append _ _
    · simp [Party.enqueued, log]
    · refine Silent.dead (enqueued_silent ?_)
      rfl
    · intro ch' _
      unfold Party.enqueued log
      rw [mapSession_session, Session.reliableFor_log, mapSession_session,
        Session.reliableFor_setReliable]
      split_ifs with hsame
      · have hfor : q.session.reliableFor ch' = q.session.reliableFor ch := by
          simp [Session.reliableFor, hsame]
        rw [hfor]
        exact List.Subset.refl _
      · exact List.Subset.refl _
  | lost _ payload e hq ih =>
    have hprev := ih (hb.of_prefix hq.trace_prefix)
    exact hprev.queued hq fun hok => by cases hok
  | frame _ msg hch hq ih =>
    have hprev := ih (hb.of_prefix hq.trace_prefix)
    refine (hprev.mono ?_).queued hq ?_
    · rintro x (hx | hx)
      · exact Or.inl hx
      · exact Or.inr (List.mem_append_left _ hx)
    · intro _ _
      exact ⟨msg, rfl, Or.inl (Or.inr (List.mem_append_right _ (List.mem_singleton_self _)))⟩
  | @withdrawn msgs q q' hs ch m rs e now henq hq ih =>
    have ht := hq.trace_prefix
    rw [enqueued_trace] at ht
    have hb' : Ledger.Bounded (q.session.trace ++ [.drew (.message ch)]) := by
      refine Ledger.Bounded.of_prefix ?_ ht
      simpa using hb
    have hprev := ih (hb'.of_prefix (List.prefix_append _ _))
    refine hprev.withdrawn henq (hs.numbered hnum) ?_ hq
    have hlast := hb' (.message ch)
    rw [List.count_append, List.count_singleton_self] at hlast
    unfold Session.drawn
    omega
  | @reliable msgs q q' hs ch m rs now henq hq ih =>
    have ht := hq.trace_prefix
    rw [enqueued_trace] at ht
    have hb' : Ledger.Bounded q'.session.trace := by simpa using hb
    have hprev := ih (hb'.of_prefix ((List.prefix_append _ _).trans ht))
    have hmem : (⟨ch, m.userType, m.encodedPayload⟩ : MsgView) ∈
        msgs ++ [⟨ch, m.userType, m.encodedPayload⟩] := by simp
    have henqd := (hprev.mono (Ψ := fun msg => Φ msg ∨
        msg ∈ msgs ++ [⟨ch, m.userType, m.encodedPayload⟩]) fun x hx =>
      hx.imp id (List.mem_append_left _)).enqueued henq (hs.numbered hnum) (Or.inr hmem)
    have hqueued := henqd.queued hq fun _ _ => ⟨_, rfl, Or.inl (Or.inr hmem)⟩
    refine hqueued.change (A := fun _ _ => True) (.session q' _ (Session.tidy_setReliable ?_ ?_))
    · rw [ReliableSession.contents_noteSent]
      exact List.Subset.refl _
    · exact (ReliableSession.sameNumbers_noteSent _ _ _).nextMessageId

def Counting (p : Party) : Prop := p.Dead ∨ p.session.Numbered

theorem Counting.steps (h : p.Counting) (hs : Steps C A p p') : p'.Counting := by
  induction hs with
  | refl => exact h
  | tail _ hc ih =>
    rcases ih with hdead | hnum
    · exact Or.inl (hc.dead hdead)
    · exact hc.sameCounters.imp id fun hsame => hsame.numbered hnum

end Party

def Said (L : List Entry) (msg : MsgView) : Prop := ∃ x ∈ L, ∃ i, x.Sent i msg

namespace End

/-- An end has said nothing but what its ledger holds. -/
structure Sender (C : Crypto) (cid : UInt64) (K : SessionKeys) (e : End) (L : List Entry) :
    Prop where
  records : L.map Entry.record = e.sends
  ledger : Ledger e.party.session.trace L
  counting : e.party.Counting
  sound : Party.Sound C (Said L) cid K e.party
  wire : ∀ bytes ∈ e.wire,
    Carries C (fun msg => Said L msg ∨ IsAck e.party.session.trace msg) cid K.tx bytes

variable {C : Crypto} {A : Channel → UInt64 → Prop} {cid : UInt64} {K : SessionKeys} {e : End}
  {L : List Entry}

theorem Fresh.sender (h : e.Fresh C) :
    e.Sender C e.party.session.connId e.party.session.keys [] where
  records := by simp [h.sends]
  ledger := ⟨by simp, .nil, by simp⟩
  counting := by
    have hn := h.numbers
    have hd : ∀ k, e.party.session.drawn k = 0 := by
      intro k
      simp [Session.drawn, h.trace]
    refine Or.inr ⟨?_, ?_, ?_⟩
    · intro ch _
      rw [Session.nextMessageId_eq_numbers, hn, hd]
      split_ifs <;> rfl
    · rw [hd]
      exact congrArg (fun n => n.2.2.1) hn
    · rw [hd]
      exact congrArg (fun n => n.2.2.2.1) hn
  sound := by
    refine ⟨?_, Or.inl rfl, rfl, ?_⟩
    · intro ch _ x hx
      rw [h.contents ch] at hx
      cases hx
    · intro pkt hp ho
      obtain ⟨kind, encrypted, payload, seq, hk, hb⟩ := h.queue pkt hp ho
      exact Or.inr ⟨kind, encrypted, payload, _, seq, _, hb, fun _ => ⟨rfl, rfl⟩,
        fun hkind => absurd hkind hk⟩
  wire := by simp [h.wire]

/-- An operation other than `send` and `flush`. -/
theorem Sender.steps_only (h : e.Sender C cid K L) {p : Party}
    (hs : Party.Steps C A e.party p) : Sender C cid K { e with party := p } L where
  records := h.records
  ledger := h.ledger.mono hs.trace_prefix
  counting := h.counting.steps hs
  sound := h.sound.steps hs
  wire := fun bytes hb =>
    (h.wire bytes hb).mono fun _ hm => hm.imp id fun ha => ha.mono hs.trace_prefix

/-- Packets leave the queue, some of them onto the wire. -/
theorem Sender.flushed (h : e.Sender C cid K L) (budget : SendBudget) (lastSendMs : UInt64)
    {net : Transport} (ho : net.sockOpen = e.party.net.sockOpen) (hq : net.pending ⊆ e.party.net.pending)
    (out : List Bytes)
    (hout : ∀ bytes ∈ out, ∃ pkt ∈ e.party.net.pending,
      pkt.ownerConnId = e.party.ownerConnId ∧ pkt.bytes = bytes) :
    Sender C cid K { e with
      party := { e.party with session := { e.party.session with budget, lastSendMs }, net }
      wire := e.wire ++ out } L where
  records := h.records
  ledger := h.ledger
  counting := by
    rcases h.counting with hdead | hnum
    · exact Or.inl ⟨hdead.1, hdead.2.1, ho.trans hdead.2.2⟩
    · have hsame : e.party.session.SameCounters { e.party.session with budget, lastSendMs } :=
        ⟨rfl, fun _ _ => rfl⟩
      exact Or.inr (hsame.numbered hnum)
  sound := (h.sound.timed budget lastSendMs).shrink ho hq
  wire := by
    intro bytes hb
    rcases List.mem_append.mp hb with hold | hnew
    · exact h.wire bytes hold
    · obtain ⟨pkt, hp, hown, rfl⟩ := hout bytes hnew
      exact h.sound.queue pkt hp hown

theorem said_append {msg : MsgView} {x : Entry} :
    Said (L ++ [x]) msg ↔ Said L msg ∨ msg ∈ x.sent := by
  unfold Said
  constructor
  · rintro ⟨y, hy, i, hi⟩
    rcases List.mem_append.mp hy with hy | hy
    · exact Or.inl ⟨y, hy, i, hi⟩
    · rw [List.mem_singleton.mp hy] at hi
      exact Or.inr (List.mem_of_getElem? hi)
  · rintro (⟨y, hy, i, hi⟩ | hmem)
    · exact ⟨y, List.mem_append_left _ hy, i, hi⟩
    · obtain ⟨i, hi⟩ := List.mem_iff_getElem?.mp hmem
      exact ⟨x, List.mem_append_right _ (List.mem_singleton_self _), i, hi⟩

/-- A call of `send`, from what the send path promises. -/
theorem Sender.snoc (h : e.Sender C cid K L) {r : SendRecord} {sent : List MsgView} {p : Party}
    (hb : r.before = e.party.session) (ha : r.after = p.session)
    (hw : Entry.WellFormed ⟨r, sent⟩) (hcount : p.Counting)
    (hsound : Party.Sound C (fun msg => Said L msg ∨ msg ∈ sent) cid K p) :
    Sender C cid K { e with party := p, sends := e.sends ++ [r] } (L ++ [⟨r, sent⟩]) where
  records := by simp [h.records]
  ledger := by
    change Ledger p.session.trace _
    rw [← ha]
    exact h.ledger.snoc hw (by rw [hb])
  counting := hcount
  sound := hsound.mono fun _ hm => said_append.mpr hm
  wire := by
    intro bytes hmem
    have ht := hw.trace_prefix
    rw [hb, ha] at ht
    refine (h.wire bytes hmem).mono ?_
    intro msg hm
    exact hm.imp (fun hs => said_append.mpr (Or.inl hs)) fun hack => hack.mono ht

/-- A call of `send` adds one entry. -/
theorem Sender.send (h : e.Sender C cid K L) (o : SendOptions) (t : UInt8) (payload : Bytes)
    (now : UInt64) (w : List Bytes)
    (hb : Ledger.Bounded (e.step C w (.send o t payload now)).party.session.trace) :
    ∃ x, (e.step C w (.send o t payload now)).Sender C cid K (L ++ [x]) := by
  by_cases hest : e.party.session.state = .established
  swap
  · -- The call is refused and records itself.
    have hsend := Party.send_of_not_established (C := C) hest o t payload now
    refine ⟨⟨⟨o, t, payload, e.party.session, e.party.session, false⟩, []⟩, ?_⟩
    simp only [step, hsend]
    refine h.snoc rfl rfl ?_ h.counting (h.sound.mono fun _ => Or.inl)
    refine ⟨List.nil_prefix, List.prefix_refl _, ?_, ?_, ?_, ?_, ?_, fun _ _ => by simp⟩
    all_goals simp
  have hnum : e.party.session.Numbered := by
    rcases h.counting with ⟨-, hclosed, -⟩ | hnum
    · rw [hest] at hclosed
      cases hclosed
    · exact hnum
  obtain ⟨sent, hsend, hpre, hok, hspec⟩ := Party.send_spec (C := C) o t payload now e.party
  change Ledger.Bounded (e.party.send C o t payload now).2.session.trace at hb
  refine ⟨⟨⟨o, t, payload, e.party.session, (e.party.send C o t payload now).2.session,
    (e.party.send C o t payload now).1 = .ok ()⟩, sent⟩, ?_⟩
  refine h.snoc rfl rfl ?_ (Or.inr (hsend.numbered hnum)) (h.sound.sending hsend hnum hb)
  exact {
    sent_prefix := hpre
    trace_prefix := hsend.trace_prefix
    sent_of_ok := fun hr => hok (of_decide_eq_true hr)
    checked := fun hs => (hspec hs).1
    draws := fun hs => (hspec hs).2.1
    ok_iff := fun hs => decide_eq_true_iff.trans (hspec hs).2.2
    numbered := fun _ => hnum
    count_le := fun ch hch => hsend.count_le hch }

theorem Sender.flush (h : e.Sender C cid K L) (now : UInt64) (i : ℕ) (socket : SocketResult)
    (w : List Bytes) : (e.step C w (.flush i now socket)).Sender C cid K L := by
  obtain ⟨budget, lastSendMs, net, heq, ho, hq⟩ := Party.flushAt_shape now i socket e.party
  have hflushed := h.flushed budget lastSendMs ho hq (e.party.flushAt now i socket).1.toList
  unfold step
  dsimp only
  rw [heq]
  apply hflushed
  intro bytes hbytes
  exact Party.mem_of_flushAt (Option.mem_toList.mp hbytes)

/-- Every step of an end keeps the account of its frames. -/
theorem Sender.step (h : e.Sender C cid K L) (w : List Bytes) (op : Op)
    (hb : Ledger.Bounded (e.step C w op).party.session.trace) :
    ∃ L', (e.step C w op).Sender C cid K (L ++ L') := by
  have hall : ∀ ch id, (fun (_ : Channel) (_ : UInt64) => True) ch id := fun _ _ => trivial
  have hsteps : ∀ p, Party.Steps C (fun _ _ => True) e.party p →
      ∃ L', Sender C cid K { e with party := p } (L ++ L') :=
    fun p hs => ⟨[], by rw [List.append_nil]; exact h.steps_only hs⟩
  cases op with
  | send o t payload now =>
    obtain ⟨x, hx⟩ := h.send o t payload now w hb
    exact ⟨[x], hx⟩
  | sendPayload data => exact hsteps _ (Party.sendPayload_steps data e.party)
  | pumpReliable now => exact hsteps _ (Party.pumpReliable_steps now e.party)
  | flush i now socket =>
    refine ⟨[], ?_⟩
    rw [List.append_nil]
    exact h.flush now i socket w
  | receive i now =>
    rw [step_receive]
    cases w[i]? with
    | none => exact ⟨[], by rw [List.append_nil]; exact h⟩
    | some datagram =>
      exact hsteps _ (Party.receive_steps now datagram e.party fun _ _ _ _ _ => Or.inl hall)
  | runHousekeeping now => exact hsteps _ (Party.runHousekeeping_steps now e.party)
  | close now reason => exact hsteps _ (Party.close_steps now reason e.party)
  | violation now reason => exact hsteps _ (Party.violation_steps now reason e.party)
  | others net otherMemory =>
    refine ⟨[], ?_⟩
    rw [List.append_nil, step_others]
    split_ifs with hmay
    · have hown := Party.own_of_othersMay hmay
      refine ⟨h.records, h.ledger, ?_, ?_, h.wire⟩
      · refine h.counting.imp (fun hd => ⟨hd.1, hd.2.1, ?_⟩) id
        exact (Party.sockOpen_of_othersMay hmay).trans hd.2.2
      · refine h.sound.of_le rfl rfl (List.prefix_refl _) rfl ?_ (fun _ _ => List.Subset.refl _) ?_
        · exact fun hd => ⟨hd.1, hd.2.1, (Party.sockOpen_of_othersMay hmay).trans hd.2.2⟩
        · intro pkt hp ho
          exact (hown pkt hp ho).imp id Or.inl
    · exact h

end End

end SecureCnet
