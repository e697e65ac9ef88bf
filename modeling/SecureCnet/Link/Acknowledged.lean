import SecureCnet.Link.Delivery
import SecureCnet.Session.Acks

/-!
# Acknowledged messages

An acknowledgement a sender takes in was queued by the receiver. The receiver queues it
before it asks its window about the id, so that a frame which comes too late is
acknowledged and dropped. In runs without such a frame every acknowledged message was
passed on.
-/

namespace SecureCnet

variable {C : Crypto} {trace : List Event} {L RL : List Entry} {ch : Channel} {id : UInt64}

/-! ### Acknowledgements taken in -/

theorem ackFrame_inj {ch' : Channel} {id' : UInt64} (h : ackFrame ch id = ackFrame ch' id') :
    ch = ch' ∧ id = id' := by
  have hdata : encodeAck ch id = encodeAck ch' id' := congrArg MsgView.data h
  obtain ⟨hcode, hid⟩ := List.cons.inj hdata
  exact ⟨Channel.code_inj hcode, be64_inj hid⟩

theorem IsAck.mem (h : IsAck trace (ackFrame ch id)) : Event.ackQueued ch id ∈ trace := by
  obtain ⟨ch', id', heq, hmem⟩ := h
  obtain ⟨rfl, rfl⟩ := ackFrame_inj heq
  exact hmem

/-- What the application sends is never taken for an acknowledgement. -/
theorem Ledger.not_said_ackFrame (hled : Ledger trace L) : ¬ Said L (ackFrame ch id) := by
  rintro ⟨x, hx, i, hi⟩
  have hw := hled.wellFormed x hx
  have hne := hw.channel_ne hi.ne_nil
  generalize hmsg : ackFrame ch id = msg at hi
  have hchannel : msg.channel = .control := by rw [← hmsg]; rfl
  have htype : msg.type = ControlType.reliableAck.code := by rw [← hmsg]; rfl
  cases hi.isFrame hw with
  | inline hin =>
    refine hne ?_
    rw [← hchannel]
    unfold inlineFrame
    cases x.record.options.channel <;> rfl
  | piece i hf hlt =>
    unfold pieceFrame at htype
    have hcode : ControlType.fragment.code = ControlType.reliableAck.code := by
      split_ifs at htype <;> exact htype
    exact absurd hcode (by decide)

namespace Party

variable {A : Channel → UInt64 → Prop} {p p' : Party}

theorem acked_of_append {es : List Event} (h : p'.session.trace = p.session.trace ++ es)
    (hes : ∀ e ∈ es, e = .acked ch id → A ch id) (hm : Event.acked ch id ∈ p'.session.trace) :
    Event.acked ch id ∈ p.session.trace ∨ A ch id := by
  rw [h] at hm
  exact (List.mem_append.mp hm).imp_right fun hnew => hes _ hnew rfl

theorem PacketEvent.ne_acked {e : Event} (h : PacketEvent e) : e ≠ .acked ch id := by
  rintro rfl
  rcases h with h | ⟨key, nonce, h⟩ <;> cases h

theorem Queued.acked_mem {kind : PacketKind} {payload : Bytes} {priority : SendPriority}
    {rc : Result Unit} (h : Queued C p kind payload priority rc p')
    (hm : Event.acked ch id ∈ p'.session.trace) : Event.acked ch id ∈ p.session.trace := by
  obtain ⟨n, es, net, rfl, -, hes⟩ := h.upToNumber
  exact (List.mem_append.mp hm).resolve_right fun hnew => (hes _ hnew).ne_acked rfl

theorem Change.acked_mem (h : Change C A p p') (hm : Event.acked ch id ∈ p'.session.trace) :
    Event.acked ch id ∈ p.session.trace ∨ A ch id := by
  cases h with
  | session s h =>
    obtain ⟨es, ht, hquiet⟩ := h.trace
    refine acked_of_append ht ?_ hm
    rintro e he rfl
    exact hquiet _ he
  | dies _ h =>
    obtain ⟨es, ht, hquiet⟩ := h.trace
    refine acked_of_append ht ?_ hm
    rintro e he rfl
    exact hquiet _ he
  | ends config hside hstate =>
    rw [ends_eq hstate] at hm
    simpa using Or.inl hm
  | queue _ kind payload priority rc h hk hmsg => exact Or.inl (h.acked_mem hm)
  | ack q ch' id' h =>
    refine Or.inl (h.acked_mem ?_)
    simpa [log, Session.log] using hm
  | plain _ h =>
    obtain ⟨s, net, rfl, rfl | rfl, -⟩ := h.shape
    · exact Or.inl hm
    · refine Or.inl ?_
      simpa [Session.drawPacketNumber, Session.log] using hm

theorem Steps.acked_mem (h : Steps C A p p') (hm : Event.acked ch id ∈ p'.session.trace) :
    Event.acked ch id ∈ p.session.trace ∨ A ch id := by
  induction h with
  | refl => exact Or.inl hm
  | tail _ hc ih => exact (hc.acked_mem hm).elim ih Or.inr

theorem Sending.acked_mem {priority : SendPriority} {msgs : List MsgView}
    (h : Sending C priority p msgs p') :
    Event.acked ch id ∈ p'.session.trace → Event.acked ch id ∈ p.session.trace := by
  refine h.rule (R := fun p q => Event.acked ch id ∈ q.session.trace →
    Event.acked ch id ∈ p.session.trace) (fun _ h => h) (fun h h' => h ∘ h') ?_ Queued.acked_mem
  rintro p s ⟨_, _, _, _, _, es, rfl, hes⟩ hm
  refine (List.mem_append.mp hm).resolve_right fun hnew => ?_
  obtain ⟨k, -, hk⟩ := hes _ hnew
  cases hk

end Party

namespace End

variable {e : End}

/-- An acknowledgement is taken in only from a datagram of the peer. -/
theorem step_acked {cid : UInt64} {key : Block 32} {w : List Bytes} (hC : C.IdealAead)
    (hled : Ledger trace RL)
    (hw : ∀ bytes ∈ w, Carries C (fun msg => Said RL msg ∨ IsAck trace msg) cid key bytes)
    (hkey : ¬e.party.Dead → e.party.session.keys.rx = key) (op : Op)
    (hm : Event.acked ch id ∈ (e.step C w op).party.session.trace) :
    Event.acked ch id ∈ e.party.session.trace ∨ Event.ackQueued ch id ∈ trace := by
  have hnone : ∀ {p : Party}, Party.Steps C (fun _ _ => False) e.party p →
      Event.acked ch id ∈ p.session.trace →
      Event.acked ch id ∈ e.party.session.trace ∨ Event.ackQueued ch id ∈ trace :=
    fun h hm => Or.inl ((h.acked_mem hm).resolve_right not_false)
  cases op with
  | send o t payload now =>
    obtain ⟨sent, hsend, -⟩ := Party.send_spec (C := C) o t payload now e.party
    exact Or.inl (hsend.acked_mem hm)
  | sendPayload data => exact hnone (Party.sendPayload_steps data e.party) hm
  | pumpReliable now => exact hnone (Party.pumpReliable_steps now e.party) hm
  | flush i now socket =>
    obtain ⟨budget, lastSendMs, net, heq, -⟩ := Party.flushAt_shape now i socket e.party
    change Event.acked ch id ∈ (e.party.flushAt now i socket).2.session.trace at hm
    rw [heq] at hm
    exact Or.inl hm
  | receive i now =>
    rw [step_receive] at hm
    cases hi : w[i]? with
    | none =>
      rw [hi] at hm
      exact Or.inl hm
    | some datagram =>
      rw [hi] at hm
      change Event.acked ch id ∈ (e.party.receive C now datagram).session.trace at hm
      by_cases hd : e.party.Dead
      · rw [Party.receive_of_dead hd] at hm
        exact Or.inl hm
      have hcarries := hw datagram (List.mem_of_getElem? hi)
      rcases Party.framed_of_carries hC hcarries (hkey hd) with hs | ⟨packet, hp, hframed⟩
      · rw [Party.receive_of_isHandshake hs] at hm
        exact Or.inl hm
      refine (Party.receive_steps (A := fun ch id => IsAck trace (ackFrame ch id)) now datagram
        e.party ?_).acked_mem hm |>.imp_right IsAck.mem
      intro packet' pt hp' hopen hkind
      obtain rfl := Except.ok.inj (hp.symm.trans hp')
      obtain ⟨msg, rfl, hlen, -, hmsg⟩ := hframed pt hopen hkind
      refine Or.inr ⟨msg, rfl, hlen, ?_⟩
      rintro c j rfl
      exact hmsg.resolve_left hled.not_said_ackFrame
  | runHousekeeping now => exact hnone (Party.runHousekeeping_steps now e.party) hm
  | close now reason => exact hnone (Party.close_steps now reason e.party) hm
  | violation now reason => exact hnone (Party.violation_steps now reason e.party) hm
  | others net otherMemory =>
    rw [step_others] at hm
    split_ifs at hm <;> exact Or.inl hm

end End

/-! ### Frames that come too late -/

/-- The receive window has moved past an id that was never accepted. -/
def Session.Overtaken (ch : Channel) (id : UInt64) (s : Session) : Prop :=
  (s.reliableFor ch).received.window.initialized = true ∧
    id.toNat + 64 ≤ (s.reliableFor ch).received.window.latest.toNat ∧
    Event.accepted ch id ∉ s.trace

instance (ch : Channel) (id : UInt64) (s : Session) : Decidable (s.Overtaken ch id) :=
  inferInstanceAs (Decidable (_ ∧ _))

/-- Everything acknowledged was accepted. -/
def Session.Sincere (s : Session) : Prop :=
  ∀ ch id, Event.ackQueued ch id ∈ s.trace → Event.accepted ch id ∈ s.trace

theorem Session.accepted_mem_receipts {s : Session} :
    Event.accepted ch id ∈ s.receipts ↔ Event.accepted ch id ∈ s.trace := by
  simp [receipts, Event.isReceipt]

theorem Session.mem_inbound_iff {s s' : Session} {e : Event} (h : s'.inbound = s.inbound)
    (he : e.isInbound = true) : e ∈ s'.trace ↔ e ∈ s.trace := by
  have hmem : ∀ s : Session, e ∈ s.inbound ↔ e ∈ s.trace := by
    intro s
    simp [inbound, he]
  rw [← hmem, h, hmem]

theorem Party.Silent.sincere {p q : Party} (h : p.Silent q) (hs : p.session.Sincere) :
    q.session.Sincere := by
  intro ch id hack
  rw [Session.mem_inbound_iff h.inbound rfl] at hack ⊢
  exact hs ch id hack

namespace Party

variable {p : Party}

theorem reliableId_eq_some {msg : MsgView} (h : reliableId msg = some id) :
    msg.channel.isReliable = true ∧ ∃ body, readReliablePayload msg.data = .ok (id, body) := by
  unfold reliableId at h
  split_ifs at h with hch
  refine ⟨hch, ?_⟩
  split at h
  · cases h
    exact ⟨_, by assumption⟩
  · cases h

/-- A reliable frame is taken when the window accepts its id. -/
theorem accepted_of_dispatch {msg : MsgView} (now : UInt64) (h : reliableId msg = some id)
    (hfresh : ((p.session.reliableFor msg.channel).received.accept id).1 = true) :
    Event.accepted msg.channel id ∈ (p.dispatchMessageFrame C now msg).session.trace := by
  obtain ⟨hch, body, hread⟩ := reliableId_eq_some h
  have hdisp : p.dispatchMessageFrame C now msg = p.dispatchReliable C now msg := by
    obtain ⟨c, t, d⟩ := msg
    cases c <;> first | rfl | cases hch
  have hacc := (accepting_spec (C := C) msg.channel id p).receipts
  rw [if_pos hfresh] at hacc
  have hmem : Event.accepted msg.channel id ∈ (p.accepting C msg.channel id).session.trace := by
    rw [← Session.accepted_mem_receipts, hacc]
    simp
  rw [hdisp, dispatchReliable_eq msg now hread, if_pos hfresh]
  have hbody := dispatchBody_steps (C := C) (A := fun _ _ => True) now msg.channel id msg.type
    body (p.accepting C msg.channel id)
  exact hbody.trace_prefix.subset hmem

/-- A frame that is not overtaken is accepted by the time it is acknowledged. -/
theorem sincere_dispatch (hs : p.session.Sincere) (hw : Windows L p.session) (now : UInt64)
    {msg : MsgView}
    (ht : ∀ id, reliableId msg = some id → ¬ p.session.Overtaken msg.channel id) :
    (p.dispatchMessageFrame C now msg).session.Sincere := by
  have hsteps := dispatchMessageFrame_steps (C := C) (A := fun _ _ => True) now msg p
    fun _ _ _ => trivial
  have hgrows := hsteps.trace_prefix
  intro ch id hack
  rw [← Session.mem_acks] at hack
  rcases dispatchMessageFrame_acks now msg p _ hack with hold | ⟨id', hid, heq⟩
  · exact hgrows.subset (hs ch id (Session.mem_acks.mp hold))
  obtain ⟨rfl, rfl⟩ := Prod.mk.inj heq
  obtain ⟨hch, body, hread⟩ := reliableId_eq_some hid
  by_cases hfresh : ((p.session.reliableFor msg.channel).received.accept id).1 = true
  · exact accepted_of_dispatch now hid hfresh
  · have hne : id ≠ 0 := (readEnvelope_eq_ok.mp hread).2.1
    rw [hw.accept_iff hch hne, not_and, Classical.not_imp, not_lt,
      Session.accepted_mem_receipts] at hfresh
    by_contra hmem
    have hnot : Event.accepted msg.channel id ∉ p.session.trace := fun h => hmem (hgrows.subset h)
    obtain ⟨hinit, hlate⟩ := hfresh hnot
    exact ht id hid ⟨hinit, hlate, hnot⟩

end Party

namespace Link

variable {cid : UInt64} {K : SessionKeys} {l : Link}

/-- Every step of a run meets a condition on the state before it. -/
def Meets (C : Crypto) (P : Action → Link → Prop) : List Action → Link → Prop
  | [], _ => True
  | a :: actions, l => P a l ∧ Meets C P actions (l.step C a)

instance Meets.decidable {P : Action → Link → Prop} [∀ a l, Decidable (P a l)] :
    ∀ actions l, Decidable (Meets C P actions l)
  | [], _ => .isTrue trivial
  | _ :: actions, l => @instDecidableAnd _ _ _ (Meets.decidable actions (l.step C _))

theorem meets_append {P : Action → Link → Prop} {actions : List Action} {a : Action} :
    l.Meets C P (actions ++ [a]) ↔ l.Meets C P actions ∧ P a (l.run C actions) := by
  induction actions generalizing l with
  | nil => exact and_comm
  | cons b actions ih => exact (and_congr_right' ih).trans and_assoc.symm

/-- The frame the receiver takes in. -/
def incoming (C : Crypto) (a : Action) (l : Link) : Option MsgView :=
  match a with
  | .right (.receive i _) => l.left.wire[i]?.bind fun datagram => l.right.party.frameIn C datagram
  | _ => none

/-- The receiver takes in no frame that it acknowledges and drops: one whose id lies 64 or more
behind the newest and was not accepted before. -/
def Timely (C : Crypto) (a : Action) (l : Link) : Prop :=
  ∀ msg ∈ l.incoming C a, ∀ id ∈ Party.reliableId msg,
    ¬ l.right.party.session.Overtaken msg.channel id

instance (a : Action) (l : Link) : Decidable (Timely C a l) :=
  @Option.decidableForallMem _ _ (fun _ => Option.decidableForallMem _) _

/-- What the sender knows to be acknowledged was accepted by the receiver. -/
structure Acknowledged (l : Link) : Prop where
  queued : ∀ ch id, Event.acked ch id ∈ l.left.party.session.trace →
    Event.ackQueued ch id ∈ l.right.party.session.trace
  sincere : l.right.party.session.Sincere

theorem Account.acked_step (hC : C.IdealAead) (h : Account C cid K L RL l)
    (hq : ∀ ch id, Event.acked ch id ∈ l.left.party.session.trace →
      Event.ackQueued ch id ∈ l.right.party.session.trace) (a : Action) :
    ∀ ch id, Event.acked ch id ∈ (l.step C a).left.party.session.trace →
      Event.ackQueued ch id ∈ (l.step C a).right.party.session.trace := by
  intro ch id hm
  cases a with
  | left op =>
    have hkey : ¬l.left.party.Dead → l.left.party.session.keys.rx = K.rx := by
      intro hd
      rcases h.left.sound.keys with hk | ⟨-, hdead⟩
      · rw [hk]
      · exact absurd hdead hd
    rcases End.step_acked hC h.right.ledger h.right.wire hkey op hm with hold | hnew
    · exact hq ch id hold
    · exact hnew
  | right op => exact (step_extends (C := C) (.right op) l).2.1.subset (hq ch id hm)

theorem Account.sincere_step (hC : C.IdealAead) (h : Account C cid K L RL l)
    (hs : l.right.party.session.Sincere) {a : Action} (ht : Timely C a l) :
    (l.step C a).right.party.session.Sincere := by
  cases a with
  | left op => exact hs
  | right op =>
    by_cases hop : ∃ i now, op = .receive i now
    · obtain ⟨i, now, rfl⟩ := hop
      rcases End.step_receives hC h.left.wire h.rx_eq i now with hsil | ⟨datagram, hi, hr⟩
      · exact hsil.sincere hs
      rcases hr with hsil | ⟨q, msg, ⟨hd, hframe, -⟩, hopened, hsil⟩
      · exact hsil.sincere hs
      have hw := (h.receiver.windows.resolve_left hd).sameInbox hopened.inbox
      refine hsil.sincere (Party.sincere_dispatch (hopened.silent.sincere hs) hw now ?_)
      intro id hid hover
      refine ht msg (by simp [incoming, hi, hframe]) id hid ?_
      obtain ⟨hinit, hlate, hnot⟩ := hover
      rw [hopened.inbox.received] at hinit hlate
      rw [Session.mem_inbound_iff hopened.inbound rfl] at hnot
      exact ⟨hinit, hlate, hnot⟩
    · have hquiet : ∀ i now, op ≠ .receive i now := fun i now heq => hop ⟨i, now, heq⟩
      rcases End.step_silent l.left.wire hquiet with hsil | ⟨now, hsil⟩
      · exact hsil.sincere hs
      · exact hsil.sincere hs

theorem Fresh.run_acknowledged (hC : C.IdealAead) (h : l.Fresh C) (actions : List Action)
    (hu : (l.run C actions).Unwrapped) (hp : (l.run C actions).PlainTypes)
    (ht : l.Meets C (Timely C) actions) : (l.run C actions).Acknowledged := by
  induction actions using List.reverseRecOn with
  | nil =>
    refine ⟨fun ch id hm => ?_, fun ch id hm => ?_⟩
    · change _ ∈ l.left.party.session.trace at hm
      rw [h.left.trace] at hm
      cases hm
    · change _ ∈ l.right.party.session.trace at hm
      rw [h.right.trace] at hm
      cases hm
  | append_singleton actions a ih =>
    rw [run_append] at hu hp ⊢
    obtain ⟨hmeets, htimely⟩ := meets_append.mp ht
    obtain ⟨L, RL, hacc⟩ := h.run_account hC actions hu.of_step hp.of_step
    have hold := ih hu.of_step hp.of_step hmeets
    exact ⟨hacc.acked_step hC hold.queued a, hacc.sincere_step hC hold.sincere htimely⟩

/-- In every run of messages in one frame in which no frame comes too late, a message whose
acknowledgement has reached the sender was passed to the application. -/
theorem acked_message_passed (hC : C.IdealAead) (h : l.Fresh C) (actions : List Action)
    (hu : (l.run C actions).Unwrapped) (hp : (l.run C actions).PlainTypes)
    (hin : ∀ r ∈ (l.run C actions).left.sends, ¬r.Fragmented)
    (ht : l.Meets C (Timely C) actions) (ch : Channel) (id : UInt64)
    (hm : Event.acked ch id ∈ (l.run C actions).left.party.session.trace) :
    ∃ r ∈ (l.run C actions).left.sends, r.ok = true ∧ r.options.channel = ch ∧
      r.frameId 0 = id ∧
      Event.passed ch id r.type r.payload ∈ (l.run C actions).right.party.session.trace := by
  obtain ⟨L, RL, hacc⟩ := h.run_account hC actions hu hp
  have hack := h.run_acknowledged hC actions hu hp ht
  have haccepted := Session.accepted_mem_receipts.mpr (hack.sincere ch id (hack.queued ch id hm))
  obtain ⟨-, x, hx, i, hi, rfl, rfl⟩ := hacc.receiver.recorded.explained _ haccepted
  have hw := hacc.left.ledger.wellFormed x hx
  have hs : x.sent ≠ [] := List.ne_nil_of_length_pos (Nat.zero_lt_of_lt hi)
  have hmem : x.record ∈ (l.run C actions).left.sends := by
    rw [← hacc.left.records]
    exact List.mem_map_of_mem hx
  have hinline := hin x.record hmem
  obtain rfl : i = 0 := hw.eq_zero_of_inline hinline hi
  have hpassed := hacc.receiver.recorded.prompt x hx hs hinline haccepted
  exact ⟨x.record, hmem, hw.ok_of_inline hs hinline, rfl, rfl, List.mem_of_mem_filter hpassed⟩

/-- A reliable message arrives and its acknowledgement comes back. -/
def confirmed : List Action :=
  [.left (.send { channel := .reliable } 7 [1] 5), .left (.flush 0 6 .sent),
    .right (.receive 0 7), .right (.flush 0 8 .sent), .left (.receive 0 9)]

theorem acked_message_passed_confirmed :
    Event.passed .reliable 1 7 [1] ∈
      (established.run .standIn confirmed).right.party.session.trace := by
  obtain ⟨r, hr, -, -, -, hpassed⟩ := acked_message_passed Crypto.standIn_idealAead
    (established_fresh _) confirmed (unwrapped_of_length (by decide +kernel) (by decide +kernel))
    (show ∀ r ∈ _, _ by decide +kernel) (by decide +kernel) (by decide +kernel) .reliable 1
    (by decide +kernel)
  have hsends : ∀ r ∈ (established.run .standIn confirmed).left.sends,
      r.type = 7 ∧ r.payload = [1] := by decide +kernel
  obtain ⟨ht, hp⟩ := hsends r hr
  rwa [ht, hp] at hpassed

/-- A first message is lost. Of the 64 that follow only the last one is urgent; it arrives and is
acknowledged before the first is sent again. -/
def late : List Action :=
  [.left (.send { channel := .reliable } 7 [0] 5), .left (.flush 0 6 .sent)] ++
    List.replicate 63 (.left (.send { channel := .reliable, priority := .low } 7 [1] 100)) ++
    [.left (.send { channel := .reliable, priority := .high } 7 [1] 100),
      .left (.flush 0 100 .sent), .right (.receive 1 101), .right (.flush 0 102 .sent),
      .left (.receive 0 103), .left (.pumpReliable 130), .left (.flush 0 130 .sent),
      .right (.receive 2 131), .right (.flush 0 132 .sent), .left (.receive 1 133)]

/-- The first message was acknowledged and never passed on. -/
theorem late_message_dropped :
    established.Fresh .standIn ∧
      (∀ r ∈ (established.run .standIn late).left.sends, r.options.channel = .reliable ∧
        r.options.lifetimeMs = 0 ∧ r.type ≠ ControlType.fragment.code ∧ ¬r.Fragmented) ∧
      Event.acked .reliable 1 ∈ (established.run .standIn late).left.party.session.trace ∧
      ¬ ∃ r ∈ (established.run .standIn late).left.sends, r.ok = true ∧
        r.options.channel = .reliable ∧ r.frameId 0 = 1 ∧
        Event.passed .reliable 1 r.type r.payload ∈
          (established.run .standIn late).right.party.session.trace :=
  ⟨established_fresh _, by decide +kernel⟩

end Link

end SecureCnet
