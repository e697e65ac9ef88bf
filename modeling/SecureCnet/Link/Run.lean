import SecureCnet.Link.Reception

/-!
# The account of a run

In every state of a run each end has said only what its ledger holds, and the record
of the receiving end is explained by the ledger of the sending end.
-/

namespace SecureCnet

variable {C : Crypto} {trace : List Event} {L L' : List Entry}

namespace End

variable {e : End}

theorem step_sends_eq (w : List Bytes) {op : Op}
    (hop : ∀ o t payload now, op ≠ .send o t payload now) : (e.step C w op).sends = e.sends := by
  cases op with
  | send o t payload now => exact absurd rfl (hop o t payload now)
  | receive i now =>
    rw [step_receive]
    cases w[i]? <;> rfl
  | others net otherMemory =>
    rw [step_others]
    split_ifs <;> rfl
  | _ => rfl

theorem step_sends_prefix (w : List Bytes) (op : Op) (e : End) :
    e.sends <+: (e.step C w op).sends := by
  cases op with
  | send o t payload now => exact List.prefix_append _ _
  | _ => rw [step_sends_eq w (by simp)]

/-- The history of an end only grows. -/
theorem step_trace_prefix (w : List Bytes) (op : Op) (e : End) :
    e.party.session.trace <+: (e.step C w op).party.session.trace := by
  have hsteps : ∀ {p : Party}, Party.Steps C (fun _ _ => True) e.party p →
      e.party.session.trace <+: p.session.trace := fun h => h.trace_prefix
  cases op with
  | send o t payload now =>
    obtain ⟨sent, hsend, -⟩ := Party.send_spec (C := C) o t payload now e.party
    exact hsend.trace_prefix
  | sendPayload data => exact hsteps (Party.sendPayload_steps data e.party)
  | pumpReliable now => exact hsteps (Party.pumpReliable_steps now e.party)
  | flush i now socket =>
    obtain ⟨budget, lastSendMs, net, heq, -⟩ := Party.flushAt_shape now i socket e.party
    change _ <+: (e.party.flushAt now i socket).2.session.trace
    rw [heq]
  | receive i now =>
    rw [step_receive]
    cases w[i]? with
    | none => exact List.prefix_refl _
    | some datagram =>
      exact hsteps (Party.receive_steps now datagram e.party fun _ _ _ _ _ =>
        Or.inl fun _ _ => trivial)
  | runHousekeeping now => exact hsteps (Party.runHousekeeping_steps now e.party)
  | close now reason => exact hsteps (Party.close_steps now reason e.party)
  | violation now reason => exact hsteps (Party.violation_steps now reason e.party)
  | others net otherMemory =>
    rw [step_others]
    split_ifs <;> exact List.prefix_refl _

/-- A step that is no reception leaves the receiving half alone, up to old fragments. -/
theorem step_silent (w : List Bytes) {op : Op} (hop : ∀ i now, op ≠ .receive i now) :
    e.party.Silent (e.step C w op).party ∨
      ∃ now, (e.party.expireFragments now).Silent (e.step C w op).party := by
  cases op with
  | send o t payload now =>
    obtain ⟨sent, hsend, -⟩ := Party.send_spec (C := C) o t payload now e.party
    exact Or.inl hsend.silent
  | sendPayload data => exact Or.inl (Party.sendPayload_silent data e.party)
  | pumpReliable now => exact Or.inl (Party.pumpReliable_silent now e.party)
  | flush i now socket => exact Or.inl (Party.flushAt_silent now i socket e.party)
  | receive i now => exact absurd rfl (hop i now)
  | runHousekeeping now => exact Or.inr ⟨now, Party.runHousekeeping_silent now e.party⟩
  | close now reason => exact Or.inl (Party.close_silent now reason e.party)
  | violation now reason => exact Or.inl (Party.violation_silent now reason e.party)
  | others net otherMemory =>
    left
    rw [step_others]
    split_ifs with hmay
    · refine ⟨rfl, rfl, Or.inr (.refl _), fun hd => ⟨hd.1, hd.2.1, ?_⟩⟩
      exact (Party.sockOpen_of_othersMay hmay).trans hd.2.2
    · exact .refl _

/-- What a reception at an end does, in terms of the peer's frames. -/
theorem step_receives (hC : C.IdealAead) {Φ : MsgView → Prop} {cid : UInt64} {key : Block 32}
    {w : List Bytes} (hw : ∀ bytes ∈ w, Carries C Φ cid key bytes)
    (hkey : ¬e.party.Dead → e.party.session.keys.rx = key) (i : ℕ) (now : UInt64) :
    e.party.Silent (e.step C w (.receive i now)).party ∨
      ∃ datagram, w[i]? = some datagram ∧ Party.Receives C now
        (fun msg => ¬e.party.Dead ∧ e.party.frameIn C datagram = some msg ∧ Φ msg) e.party
        (e.step C w (.receive i now)).party := by
  rw [step_receive]
  cases hwi : w[i]? with
  | none => exact Or.inl (.refl _)
  | some datagram =>
    right
    exact ⟨datagram, rfl,
      Party.receives_of_carries hC (hw datagram (List.mem_of_getElem? hwi)) hkey now⟩

end End

/-- A reception brings a frame of the ledger, an acknowledgement, or nothing. -/
theorem Receiver.receives {p p' : Party} {acks : List Event} {now : UInt64} {Ψ : MsgView → Prop}
    (hled : Ledger trace L) (hb : Ledger.Bounded trace)
    (hplain : ∀ x ∈ L, x.record.type ≠ ControlType.fragment.code) (h : Receiver L p)
    (hr : Party.Receives C now Ψ p p')
    (hΨ : ∀ msg, Ψ msg → ¬p.Dead ∧ (Said L msg ∨ IsAck acks msg)) : Receiver L p' := by
  rcases hr with hs | ⟨q, msg, hmsg, hopen, hs⟩
  · exact h.silent hs
  obtain ⟨hd, hsaid | ⟨ch, id, rfl, -⟩⟩ := hΨ msg hmsg
  · obtain ⟨x, hx, i, hi⟩ := hsaid
    have hq := h.silent hopen.silent
    have hw := (h.windows.resolve_left hd).sameInbox hopen.inbox
    exact (Receiver.dispatch hled hb hq.recorded hw hx hi (hplain x hx) now).silent hs
  · exact h.silent (hopen.silent.trans ((Party.dispatch_ackFrame_silent now ch id q).trans hs))

namespace Link

variable {cid : UInt64} {K : SessionKeys} {RL : List Entry} {l : Link}

/-- Everything said on a link is accounted for. -/
structure Account (C : Crypto) (cid : UInt64) (K : SessionKeys) (L RL : List Entry) (l : Link) :
    Prop where
  left : l.left.Sender C cid K L
  right : l.right.Sender C cid K.complement RL
  receiver : Receiver L l.right.party

theorem Fresh.account (h : l.Fresh C) :
    Account C l.left.party.session.connId l.left.party.session.keys [] [] l where
  left := h.left.sender
  right := by
    have hr := h.right.sender
    rwa [h.connId, h.keys] at hr
  receiver := by
    have hrec : l.right.party.session.receipts = [] := by
      simp [Session.receipts, h.right.trace]
    have hin := h.right.inbox
    refine ⟨?_, Or.inr ⟨?_, ?_, by simp, ?_⟩⟩
    · rw [hrec]
      exact ⟨by simp, by simp, rfl, by simp [orderedOut], by simp⟩
    · intro ch _
      have hids : acceptedIds ch [] = ∅ := by simp [acceptedIds]
      rw [hin.received, hrec, hids]
      exact ReplayWindow.holds_default
    · intro id e he
      rw [hin.entries] at he
      simp at he
    · rw [hrec]
      refine ⟨?_, by simp [orderedOut], ?_⟩
      · rw [hin.nextExpected]
        rfl
      · intro s m hs
        rw [hin.buffer] at hs
        simp at hs

theorem Account.rx_eq (h : Account C cid K L RL l) (hd : ¬l.right.party.Dead) :
    l.right.party.session.keys.rx = K.tx := by
  rcases h.right.sound.keys with hk | ⟨-, hdead⟩
  · rw [hk]
    rfl
  · exact absurd hdead hd

theorem step_extends (a : Action) (l : Link) :
    l.left.party.session.trace <+: (l.step C a).left.party.session.trace ∧
      l.right.party.session.trace <+: (l.step C a).right.party.session.trace ∧
      l.left.sends <+: (l.step C a).left.sends := by
  cases a with
  | left op =>
    exact ⟨End.step_trace_prefix _ op _, List.prefix_refl _, End.step_sends_prefix _ op _⟩
  | right op => exact ⟨List.prefix_refl _, End.step_trace_prefix _ op _, List.prefix_refl _⟩

theorem Unwrapped.of_step {a : Action} (h : (l.step C a).Unwrapped) : l.Unwrapped := by
  obtain ⟨hl, hr, -⟩ := step_extends (C := C) a l
  have hleft := Ledger.Bounded.of_prefix (fun k => (h k).1) hl
  have hright := Ledger.Bounded.of_prefix (fun k => (h k).2) hr
  exact fun k => ⟨hleft k, hright k⟩

theorem PlainTypes.of_step {a : Action} (h : (l.step C a).PlainTypes) : l.PlainTypes :=
  fun r hr => h r ((step_extends (C := C) a l).2.2.subset hr)

/-- One step of a link keeps the account. -/
theorem Account.step (hC : C.IdealAead) (h : Account C cid K L RL l) (a : Action)
    (hu : (l.step C a).Unwrapped) (hp : l.PlainTypes) :
    ∃ L' RL', Account C cid K (L ++ L') (RL ++ RL') (l.step C a) := by
  have hplain : ∀ x ∈ L, x.record.type ≠ ControlType.fragment.code := by
    intro x hx
    refine hp x.record ?_
    rw [← h.left.records]
    exact List.mem_map_of_mem hx
  cases a with
  | left op =>
    have hb : Ledger.Bounded (l.left.step C l.right.wire op).party.session.trace :=
      fun k => (hu k).1
    obtain ⟨L', hL'⟩ := h.left.step l.right.wire op hb
    refine ⟨L', [], hL', ?_, h.receiver.append hL'.ledger hb⟩
    rw [List.append_nil]
    exact h.right
  | right op =>
    have hbl : Ledger.Bounded l.left.party.session.trace := fun k => (hu k).1
    obtain ⟨RL', hRL'⟩ := h.right.step l.left.wire op fun k => (hu k).2
    refine ⟨[], RL', ?_, hRL', ?_⟩
    · rw [List.append_nil]
      exact h.left
    rw [List.append_nil]
    by_cases hop : ∃ i now, op = .receive i now
    · obtain ⟨i, now, rfl⟩ := hop
      rcases End.step_receives hC h.left.wire h.rx_eq i now with hs | ⟨datagram, -, hr⟩
      · exact h.receiver.silent hs
      · exact h.receiver.receives h.left.ledger hbl hplain hr fun msg hm => ⟨hm.1, hm.2.2⟩
    · have hquiet : ∀ i now, op ≠ .receive i now := fun i now heq => hop ⟨i, now, heq⟩
      rcases End.step_silent l.left.wire hquiet with hs | ⟨now, hs⟩
      · exact h.receiver.silent hs
      · exact (h.receiver.expireFragments now).silent hs

theorem Fresh.run_account (hC : C.IdealAead) (h : l.Fresh C) (actions : List Action)
    (hu : (l.run C actions).Unwrapped) (hp : (l.run C actions).PlainTypes) :
    ∃ L RL, Account C l.left.party.session.connId l.left.party.session.keys L RL
      (l.run C actions) := by
  induction actions using List.reverseRecOn with
  | nil => exact ⟨[], [], h.account⟩
  | append_singleton actions a ih =>
    rw [run_append] at hu hp ⊢
    obtain ⟨L, RL, hacc⟩ := ih hu.of_step hp.of_step
    obtain ⟨L', RL', hacc'⟩ := hacc.step hC a hu hp.of_step
    exact ⟨L ++ L', RL ++ RL', hacc'⟩

end Link

end SecureCnet
