import SecureCnet.Delivery.ReliableRuns

/-!
# Transmissions of reliable messages

A message is transmitted when its frame goes into the packet queue: once when it is
posted, and again in every retransmission pass that hands it over with success. The
send count and the time of the first transmission follow the transmissions, and all
pending messages are in flight, as long as whatever is posted finds room in flight.
-/

namespace SecureCnet

namespace ReliableSession

variable {rs : ReliableSession} {m : PendingReliableMessage} {ms : List PendingReliableMessage}

/-! ### Posting a message -/

/-- A message is enqueued; its frame goes into the packet queue and is noted, or it is refused
there and the message withdrawn. -/
def post (userType : UInt8) (data : Bytes) (priority : SendPriority) (lifetimeMs nowMs : UInt64)
    (queued : Bool) (rs : ReliableSession) : ReliableSession :=
  match rs.enqueue userType data priority lifetimeMs nowMs with
  | (.error _, rs) => rs
  | (.ok m, rs) =>
    if queued then (rs.noteSent m.messageId nowMs).2 else (rs.acknowledge m.messageId nowMs).2

/-- The id of the message, if it is transmitted. -/
def posted (userType : UInt8) (data : Bytes) (priority : SendPriority) (lifetimeMs nowMs : UInt64)
    (queued : Bool) (rs : ReliableSession) : List UInt64 :=
  match (rs.enqueue userType data priority lifetimeMs nowMs).1 with
  | .error _ => []
  | .ok m => if queued then [m.messageId] else []

/-- Counters and order are right. -/
structure Sound (rs : ReliableSession) : Prop where
  counted : rs.Counted
  ordered : rs.Ordered

/-- There are ids and room in flight for so many messages. -/
structure Roomy (n : ℕ) (rs : ReliableSession) : Prop where
  ids : rs.nextMessageId.toNat + n < 2 ^ 64
  flight : rs.inflightCount.toNat + n ≤ rs.cfg.maxInflightMessages.toNat

theorem Ordered.messageId_ne (h : rs.Ordered) (hm : m ∈ rs.pending) :
    m.messageId ≠ rs.nextMessageId := by
  intro heq
  have hlt := h.below m hm
  rw [heq] at hlt
  exact UInt64.lt_irrefl _ hlt

theorem find?_insertPending (h : ∀ x ∈ ms, x.messageId ≠ m.messageId) :
    (insertPending m ms).find? (fun x => x.messageId = m.messageId) = some m := by
  unfold insertPending
  rw [List.orderedInsert_eq_take_drop, List.find?_append, List.find?_eq_none.mpr,
    List.find?_cons_of_pos (by simp)]
  · rfl
  · intro x hx
    simpa using h x (List.takeWhile_subset _ hx)

/-- What posting does: nothing but perhaps use up an id, or add a message that is in flight. -/
theorem post_cases (h : rs.Ordered) (t : UInt8) (d : Bytes) (prio : SendPriority)
    (life now : UInt64) (queued : Bool) (hroom : rs.inflightCount < rs.cfg.maxInflightMessages) :
    (rs.posted t d prio life now queued = [] ∧
      (rs.post t d prio life now queued).pending = rs.pending ∧
      (rs.post t d prio life now queued).inflightCount = rs.inflightCount ∧
      ((rs.post t d prio life now queued).nextMessageId = rs.nextMessageId ∨
        (rs.post t d prio life now queued).nextMessageId = rs.nextMessageId + 1)) ∨
    (rs.posted t d prio life now queued = [rs.nextMessageId] ∧
      (∀ x, x ∈ (rs.post t d prio life now queued).pending ↔
        x = (rs.queued t d prio life now).markSent now ∨ x ∈ rs.pending) ∧
      (rs.post t d prio life now queued).inflightCount = rs.inflightCount + 1 ∧
      (rs.post t d prio life now queued).nextMessageId = rs.nextMessageId + 1) := by
  unfold post posted
  rcases rs.enqueue_eq t d prio life now with ⟨msg, he, -⟩ | ⟨msg, he, -⟩ | ⟨he, -⟩
  · rw [he]
    exact Or.inl ⟨rfl, rfl, rfl, Or.inl rfl⟩
  · rw [he]
    exact Or.inl ⟨rfl, rfl, rfl, Or.inr rfl⟩
  obtain ⟨rs₁, he₁, hpend, hcount, hnext, hcfg⟩ : ∃ rs₁,
      rs.enqueue t d prio life now = (.ok (rs.queued t d prio life now), rs₁) ∧
      rs₁.pending = insertPending (rs.queued t d prio life now) rs.pending ∧
      rs₁.inflightCount = rs.inflightCount ∧ rs₁.nextMessageId = rs.nextMessageId + 1 ∧
      rs₁.cfg = rs.cfg := ⟨_, he, rfl, rfl, rfl, rfl⟩
  have hnew : ∀ x ∈ rs.pending, x.messageId ≠ (rs.queued t d prio life now).messageId :=
    fun x hx => h.messageId_ne hx
  have hfind := find?_insertPending hnew
  rw [← hpend] at hfind
  rw [he₁]
  cases queued with
  | false =>
    left
    refine ⟨rfl, ?_, ?_, Or.inr ?_⟩
    · refine (acknowledge_pending ..).trans ?_
      rw [hpend]
      exact eraseP_insertPending hnew
    · exact (acknowledge_counters hfind now).2.trans hcount
    · exact (sameNumbers_acknowledge ..).nextMessageId.trans hnext
  | true =>
    right
    obtain ⟨l, r, hq, -, herase, hreplace⟩ := find?_split hfind
    rw [hpend, eraseP_insertPending hnew] at herase
    have hsent : (rs₁.noteSent (rs.queued t d prio life now).messageId now).2 = { rs₁ with
        inflightCount := rs₁.inflightCount + 1
        pending := l ++ (rs.queued t d prio life now).markSent now :: r } := by
      have hfull : ¬rs₁.cfg.maxInflightMessages ≤ rs₁.inflightCount := by
        rw [hcfg, hcount]
        exact UInt32.not_le.mpr hroom
      unfold noteSent
      rw [hfind]
      dsimp only
      rw [if_neg (by simp [hfull]), hreplace]
      rfl
    simp only [if_true, hsent]
    refine ⟨rfl, fun x => ?_, by rw [hcount], hnext⟩
    rw [herase]
    simp only [List.mem_append, List.mem_cons]
    tauto

theorem withdrawn_not_sampled (h : rs.Ordered) {t : UInt8} {d : Bytes} {prio : SendPriority}
    {life now : UInt64} {rs' : ReliableSession} (he : rs.enqueue t d prio life now = (.ok m, rs'))
    (now' : UInt64) : (rs'.acknowledge m.messageId now').1.rttSampleValid = false := by
  rcases rs.enqueue_eq t d prio life now with ⟨msg, he', -⟩ | ⟨msg, he', -⟩ | ⟨he', -⟩
  · cases he'.symm.trans he
  · cases he'.symm.trans he
  · cases he'.symm.trans he
    have hfind := find?_insertPending (m := rs.queued t d prio life now)
      fun x hx => h.messageId_ne hx
    unfold acknowledge
    rw [hfind]
    rfl

theorem toNat_succ_of_fits {a : UInt64} (h : a.toNat + 1 < 2 ^ 64) :
    (a + 1).toNat = a.toNat + 1 := by
  rw [UInt64.toNat_add]
  exact Nat.mod_eq_of_lt h

theorem Counted.post (h : rs.Counted) (t : UInt8) (d : Bytes) (prio : SendPriority)
    (life now : UInt64) (queued : Bool) : (rs.post t d prio life now queued).Counted := by
  have hc := h.enqueue t d prio life now
  unfold ReliableSession.post
  cases he : rs.enqueue t d prio life now with
  | mk rc rs₁ =>
    rw [he] at hc
    cases rc with
    | error e => exact hc
    | ok m =>
      cases queued with
      | true => exact hc.noteSent m.messageId now
      | false => exact hc.acknowledge m.messageId now

theorem Ordered.post (h : rs.Ordered) (hids : rs.nextMessageId.toNat + 1 < 2 ^ 64) (t : UInt8)
    (d : Bytes) (prio : SendPriority) (life now : UInt64) (queued : Bool) :
    (rs.post t d prio life now queued).Ordered := by
  have ho := h.enqueue hids t d prio life now
  unfold ReliableSession.post
  cases he : rs.enqueue t d prio life now with
  | mk rc rs₁ =>
    rw [he] at ho
    cases rc with
    | error e => exact ho
    | ok m =>
      cases queued with
      | true => exact ho.noteSent m.messageId now
      | false => exact ho.acknowledge m.messageId now

theorem Sound.post (h : rs.Sound) (hids : rs.nextMessageId.toNat + 1 < 2 ^ 64) (t : UInt8)
    (d : Bytes) (prio : SendPriority) (life now : UInt64) (queued : Bool) :
    (rs.post t d prio life now queued).Sound :=
  ⟨h.counted.post t d prio life now queued, h.ordered.post hids t d prio life now queued⟩

theorem bytes_of_contents {rs' : ReliableSession} (h : rs'.contents = rs.contents) :
    bytes rs'.pending = bytes rs.pending := by
  have hsum := congrArg (fun cs : List (UInt64 × UInt8 × Bytes) =>
    (cs.map fun c => c.2.2.length).sum) h
  simpa [contents, bytes, Function.comp_def, PendingReliableMessage.content] using hsum

theorem bytes_sublist {l r : List PendingReliableMessage} (h : l.Sublist r) : bytes l ≤ bytes r := by
  induction h with
  | slnil => exact le_rfl
  | cons m _ ih =>
    rw [bytes_cons]
    omega
  | cons_cons m _ ih =>
    rw [bytes_cons, bytes_cons]
    omega

/-- A message adds its bytes only if they pass the check of the byte budget. -/
theorem bytes_post (t : UInt8) (d : Bytes) (prio : SendPriority) (life now : UInt64) (queued : Bool)
    (rs : ReliableSession) :
    bytes (rs.post t d prio life now queued).pending ≤ bytes rs.pending ∨
    bytes (rs.post t d prio life now queued).pending ≤ bytes rs.pending + (8 + d.length) ∧
      rs.pendingBytes + UInt32.ofNat (8 + d.length) ≤ rs.cfg.maxPendingBytes := by
  unfold post
  rcases rs.enqueue_eq t d prio life now with ⟨msg, he, -⟩ | ⟨msg, he, -⟩ | ⟨he, -, -, -, hbudget⟩
  · rw [he]
    exact Or.inl le_rfl
  · rw [he]
    exact Or.inl le_rfl
  · right
    refine ⟨?_, hbudget⟩
    rw [he]
    have hadd : bytes (insertPending (rs.queued t d prio life now) rs.pending) =
        bytes rs.pending + (8 + d.length) := by
      rw [bytes_perm (insertPending_perm _ _), bytes_cons, Nat.add_comm]
      simp [ReliableSession.queued]
    rw [← hadd]
    cases queued with
    | true => exact le_of_eq (bytes_of_contents (contents_noteSent ..))
    | false =>
      refine bytes_sublist ?_
      dsimp only
      rw [if_neg (by decide), acknowledge_pending]
      exact List.eraseP_sublist

theorem post_cfg (t : UInt8) (d : Bytes) (prio : SendPriority) (life now : UInt64) (queued : Bool)
    (rs : ReliableSession) : (rs.post t d prio life now queued).cfg = rs.cfg := by
  unfold post
  rcases rs.enqueue_eq t d prio life now with ⟨msg, he, -⟩ | ⟨msg, he, -⟩ | ⟨he, -⟩
  · rw [he]
    rfl
  · rw [he]
    rfl
  · rw [he]
    cases queued with
    | true => exact (sameNumbers_noteSent ..).cfg
    | false => exact (sameNumbers_acknowledge ..).cfg

theorem Roomy.mono {m n : ℕ} (h : rs.Roomy n) (hm : m ≤ n) : rs.Roomy m where
  ids := lt_of_le_of_lt (Nat.add_le_add_left hm _) h.ids
  flight := (Nat.add_le_add_left hm _).trans h.flight

theorem Roomy.lt {n : ℕ} (h : rs.Roomy (n + 1)) : rs.inflightCount < rs.cfg.maxInflightMessages := by
  have hflight := h.flight
  rw [UInt32.lt_iff_toNat_lt]
  omega

/-- Each message takes one id and one place at most. -/
theorem Roomy.post {n : ℕ} (h : rs.Roomy (n + 1)) (ho : rs.Ordered) (t : UInt8) (d : Bytes)
    (prio : SendPriority) (life now : UInt64) (queued : Bool) :
    (rs.post t d prio life now queued).Roomy n := by
  have hids := h.ids
  have hflight := h.flight
  have hsucc := toNat_succ_of_fits (show rs.nextMessageId.toNat + 1 < 2 ^ 64 by omega)
  have hcfg := rs.post_cfg t d prio life now queued
  rcases post_cases ho t d prio life now queued h.lt with
    ⟨-, -, hcount, hnext | hnext⟩ | ⟨-, -, hcount, hnext⟩
  · exact ⟨by rw [hnext]; omega, by rw [hcount, hcfg]; omega⟩
  · exact ⟨by rw [hnext, hsucc]; omega, by rw [hcount, hcfg]; omega⟩
  · exact ⟨by rw [hnext, hsucc]; omega, by rw [hcount, hcfg, toNat_succ_of_lt h.lt]; omega⟩

/-! ### Everything is in flight -/

def Aloft (rs : ReliableSession) : Prop := ∀ m ∈ rs.pending, m.inflight = true

theorem Aloft.subset {rs' : ReliableSession} (h : rs.Aloft) (hsub : rs'.pending ⊆ rs.pending) :
    rs'.Aloft :=
  fun m hm => h m (hsub hm)

theorem Aloft.post (h : rs.Aloft) (ho : rs.Ordered) (t : UInt8) (d : Bytes) (prio : SendPriority)
    (life now : UInt64) (queued : Bool) (hroom : rs.inflightCount < rs.cfg.maxInflightMessages) :
    (rs.post t d prio life now queued).Aloft := by
  rcases post_cases ho t d prio life now queued hroom with ⟨-, hsame, -⟩ | ⟨-, hmem, -⟩
  · exact h.subset (by rw [hsame]; exact List.Subset.refl _)
  · intro x hx
    rcases (hmem x).mp hx with rfl | hold
    · rfl
    · exact h x hold

theorem Aloft.length_le (h : rs.Aloft) (hc : rs.Counted) :
    rs.pending.length ≤ rs.cfg.maxInflightMessages.toNat := by
  have hfly : flying rs.pending = rs.pending.length := List.countP_eq_length.mpr h
  rw [← hfly, ← hc.inflightCount]
  exact UInt32.le_iff_toNat_le.mp hc.maxInflight

/-- Every frame fits into a packet. -/
def Short (rs : ReliableSession) : Prop :=
  ∀ c ∈ rs.contents, c.2.2.length ≤ NetConfig.maxMessageBytes

theorem Short.subset {rs' : ReliableSession} (h : rs.Short) (hsub : rs'.contents ⊆ rs.contents) :
    rs'.Short :=
  fun c hc => h c (hsub hc)

theorem Short.post (h : rs.Short) (t : UInt8) (d : Bytes) (prio : SendPriority)
    (life now : UInt64) (queued : Bool) : (rs.post t d prio life now queued).Short := by
  unfold ReliableSession.post
  rcases rs.enqueue_eq t d prio life now with ⟨msg, he, -⟩ | ⟨msg, he, -⟩ | ⟨he, -, hlen, -⟩
  · rw [he]
    exact h
  · rw [he]
    exact h
  · rw [he]
    have hnew : Short { rs with
        nextMessageId := rs.nextMessageId + 1
        pending := insertPending (rs.queued t d prio life now) rs.pending
        pendingBytes := rs.pendingBytes + UInt32.ofNat (8 + d.length) } := by
      intro c hc
      obtain ⟨m, hm, rfl⟩ := List.mem_map.mp hc
      rcases mem_insertPending.mp hm with rfl | hold
      · simp [PendingReliableMessage.content, ReliableSession.queued] at hlen ⊢
        omega
      · exact h _ (List.mem_map_of_mem hold)
    cases queued with
    | true => exact hnew.subset fun c hc => (contents_noteSent ..) ▸ hc
    | false => exact hnew.subset (contents_acknowledge ..).subset

section Pass

variable {σ : Type} {now : UInt64} {fn : PendingReliableMessage → σ → Result Unit × σ}

/-- A pass that goes through sends everything again that it takes out of flight: there was
room for it before. -/
theorem resendLoop_aloft {k : ℕ} (rs : ReliableSession) (s : σ)
    (hfly : ∀ m ∈ ms, m.inflight = true)
    (hcount : rs.inflightCount.toNat = k + ms.length)
    (hmax : rs.inflightCount ≤ rs.cfg.maxInflightMessages)
    (hok : (resendLoop now fn ms rs s).1 = .ok ()) :
    ∀ m ∈ (resendLoop now fn ms rs s).2.1, m.inflight = true := by
  induction ms generalizing k rs s with
  | nil => exact fun m hm => absurd hm (List.not_mem_nil)
  | cons x ms ih =>
    have hx := hfly x (by simp)
    have hms : ∀ m ∈ ms, m.inflight = true := fun m hm => hfly m (by simp [hm])
    rw [List.length_cons] at hcount
    rw [resendLoop_cons] at hok ⊢
    by_cases hskip : (x.expired now || x.waiting now) = true
    · rw [if_pos hskip] at hok ⊢
      have hrest := ih (k := k + 1) rs s hms (by omega) hmax hok
      exact List.forall_mem_cons.mpr ⟨hx, hrest⟩
    rw [if_neg hskip] at hok ⊢
    have hcfg := timedOut_cfg x rs
    have hout : (timedOut x rs).2.inflightCount.toNat = k + ms.length := by
      rw [timedOut_inflightCount, hx, Bool.toNat_true]
      omega
    have hroom : (timedOut x rs).2.inflightCount < (timedOut x rs).2.cfg.maxInflightMessages := by
      rw [hcfg, UInt32.lt_iff_toNat_lt, hout]
      have := UInt32.le_iff_toNat_le.mp hmax
      omega
    rw [if_neg (UInt32.not_le.mpr hroom)] at hok ⊢
    cases hf : fn (timedOut x rs).1 s with
    | mk rc s' =>
      rw [hf] at hok
      cases rc with
      | error e => cases hok
      | ok u =>
        have hsent : (timedOut x rs).2.countSent.inflightCount.toNat = k + 1 + ms.length := by
          rw [countSent, toNat_succ_of_lt hroom, hout]
          omega
        have hrest := ih (k := k + 1) (timedOut x rs).2.countSent s' hms hsent
          (succ_le_of_lt hroom) hok
        exact List.forall_mem_cons.mpr ⟨rfl, hrest⟩

theorem resendDue_fst (rs : ReliableSession) (s : σ) :
    (rs.resendDue now fn s).1 = (resendLoop now fn rs.pending rs s).1 := by
  unfold resendDue
  cases resendLoop now fn rs.pending rs s with
  | mk rc rest => cases rc <;> rfl

theorem Aloft.resendDue (h : rs.Aloft) (hc : rs.Counted) (s : σ)
    (hok : (rs.resendDue now fn s).1 = .ok ()) : (rs.resendDue now fn s).2.1.Aloft := by
  have hfly : flying rs.pending = rs.pending.length := List.countP_eq_length.mpr h
  rw [resendDue_fst] at hok
  intro m hm
  rw [(resendDue_fields now fn rs s).1] at hm
  exact resendLoop_aloft (k := 0) rs s h (by rw [hc.inflightCount, hfly, Nat.zero_add])
    hc.maxInflight hok m hm

theorem timedOut_content (m : PendingReliableMessage) (rs : ReliableSession) :
    (timedOut m rs).1.content = m.content := by
  unfold timedOut
  split_ifs <;> rfl

variable (now fn) in
/-- A pass goes through if what it sends into has room for every message. -/
theorem resendLoop_ok (Room : ℕ → σ → Prop) (hless : ∀ k s, Room (k + 1) s → Room k s)
    (hfn : ∀ m k s, m.content ∈ ms.map PendingReliableMessage.content → Room (k + 1) s →
      (fn m s).1 = .ok () ∧ Room k (fn m s).2)
    (k : ℕ) (rs : ReliableSession) (s : σ) (hs : Room (k + ms.length) s) :
    (resendLoop now fn ms rs s).1 = .ok () ∧ Room k (resendLoop now fn ms rs s).2.2.2 := by
  have hdrop : ∀ n s, Room (k + n) s → Room k s := by
    intro n
    induction n with
    | zero => exact fun s h => h
    | succ n ih => exact fun s h => ih s (hless _ s h)
  induction ms generalizing rs s with
  | nil => exact ⟨rfl, hs⟩
  | cons m ms ih =>
    have htail := ih fun x j t hx => hfn x j t (List.mem_cons_of_mem _ hx)
    rw [resendLoop_cons]
    split_ifs with hskip hfull
    · exact htail rs s (hless _ s hs)
    · exact ⟨rfl, hdrop _ s hs⟩
    · have hm : (timedOut m rs).1.content ∈ (m :: ms).map PendingReliableMessage.content := by
        rw [timedOut_content]
        exact List.mem_cons_self
      obtain ⟨hok, hroom⟩ := hfn (timedOut m rs).1 (k + ms.length) s hm hs
      cases hf : fn (timedOut m rs).1 s with
      | mk rc s' =>
        rw [hf] at hok hroom
        obtain rfl : rc = .ok () := hok
        exact htail _ s' hroom

variable (now fn) in
theorem resendDue_ok (Room : ℕ → σ → Prop) (hless : ∀ k s, Room (k + 1) s → Room k s)
    (hfn : ∀ m k s, m.content ∈ rs.contents → Room (k + 1) s →
      (fn m s).1 = .ok () ∧ Room k (fn m s).2)
    (k : ℕ) (s : σ) (hs : Room (k + rs.pending.length) s) :
    (rs.resendDue now fn s).1 = .ok () ∧ Room k (rs.resendDue now fn s).2.2 := by
  obtain ⟨hok, hroom⟩ := resendLoop_ok now fn Room hless hfn k rs s hs
  unfold ReliableSession.resendDue
  cases hr : resendLoop now fn rs.pending rs s with
  | mk rc rest =>
    rw [hr] at hok hroom
    obtain rfl : rc = .ok () := hok
    exact ⟨rfl, hroom⟩

end Pass

/-! ### The transmissions on record -/

/-- The transmissions so far, as ids with times, are those the pending messages count. -/
structure Recorded (sent : List (UInt64 × UInt64)) (rs : ReliableSession) : Prop where
  below : ∀ t ∈ sent, t.1 < rs.nextMessageId
  count : ∀ m ∈ rs.pending, sent.countP (fun t => t.1 = m.messageId) = m.sendCount.toNat
  first : ∀ m ∈ rs.pending, m.sendCount = 1 → (m.messageId, m.firstSendMs) ∈ sent
  unsent : ∀ m ∈ rs.pending, m.sendCount = 0 → m.firstSendMs = 0

variable {sent : List (UInt64 × UInt64)}

theorem Recorded.subset {rs' : ReliableSession} (h : rs.Recorded sent)
    (hsub : rs'.pending ⊆ rs.pending) (hnext : rs'.nextMessageId = rs.nextMessageId) :
    rs'.Recorded sent :=
  ⟨fun t ht => hnext ▸ h.below t ht, fun m hm => h.count m (hsub hm),
    fun m hm => h.first m (hsub hm), fun m hm => h.unsent m (hsub hm)⟩

/-- A round-trip sample comes from a message that was transmitted once, and measures the time
since then. -/
theorem Recorded.sample (h : rs.Recorded sent) {id now : UInt64}
    (hvalid : (rs.acknowledge id now).1.rttSampleValid = true) :
    ∃ t, sent.filter (fun s => s.1 = id) = [(id, t)] ∧ t ≤ now ∧
      (rs.acknowledge id now).1.rttSampleMs = now - t := by
  unfold acknowledge at hvalid ⊢
  cases hf : rs.pending.find? fun m => m.messageId = id with
  | none =>
    rw [hf] at hvalid
    cases hvalid
  | some m =>
    rw [hf] at hvalid
    dsimp only at hvalid ⊢
    rw [decide_eq_true_eq] at hvalid
    have hm := List.mem_of_find?_eq_some hf
    have hid : m.messageId = id := by simpa using List.find?_some hf
    refine ⟨m.firstSendMs, ?_, hvalid.2.2, by rw [if_pos hvalid]⟩
    have hcount := h.count m hm
    have hfirst := h.first m hm hvalid.1
    rw [hvalid.1, List.countP_eq_length_filter] at hcount
    rw [hid] at hcount hfirst
    obtain ⟨t, ht⟩ := List.length_eq_one_iff.mp (hcount.trans rfl)
    have hmem : (id, m.firstSendMs) ∈ sent.filter fun s => s.1 = id :=
      List.mem_filter.mpr ⟨hfirst, by simp⟩
    rw [ht, List.mem_singleton] at hmem
    rw [ht, hmem]

theorem Recorded.post (h : rs.Recorded sent) (ho : rs.Ordered)
    (hids : rs.nextMessageId.toNat + 1 < 2 ^ 64) (t : UInt8) (d : Bytes) (prio : SendPriority)
    (life now : UInt64) (queued : Bool)
    (hroom : rs.inflightCount < rs.cfg.maxInflightMessages) :
    (rs.post t d prio life now queued).Recorded
      (sent ++ (rs.posted t d prio life now queued).map fun id => (id, now)) := by
  have hsucc : rs.nextMessageId < rs.nextMessageId + 1 := by
    rw [UInt64.lt_iff_toNat_lt, toNat_succ_of_fits hids]
    exact Nat.lt_succ_self _
  rcases post_cases ho t d prio life now queued hroom with
    ⟨hnone, hpend, -, hnext⟩ | ⟨hone, hmem, -, hnext⟩
  · rw [hnone, List.map_nil, List.append_nil]
    refine ⟨fun x hx => ?_, fun m hm => h.count m (hpend ▸ hm), fun m hm => h.first m (hpend ▸ hm),
      fun m hm => h.unsent m (hpend ▸ hm)⟩
    rcases hnext with hnext | hnext
    · rw [hnext]
      exact h.below x hx
    · rw [hnext]
      exact UInt64.lt_trans (h.below x hx) hsucc
  · -- The new id is above all ids on record.
    have hfresh : sent.countP (fun x => x.1 = rs.nextMessageId) = 0 := by
      rw [List.countP_eq_zero]
      intro x hx heq
      have hlt := h.below x hx
      rw [decide_eq_true_eq.mp heq] at hlt
      exact UInt64.lt_irrefl _ hlt
    rw [hone, List.map_singleton]
    refine ⟨?_, ?_, ?_, ?_⟩
    · rw [hnext]
      intro x hx
      rcases List.mem_append.mp hx with hold | hnew
      · exact UInt64.lt_trans (h.below x hold) hsucc
      · rw [List.mem_singleton.mp hnew]
        exact hsucc
    · intro m hm
      rw [List.countP_append]
      rcases (hmem m).mp hm with rfl | hold
      · change sent.countP (fun x => x.1 = rs.nextMessageId) + _ = 1
        rw [hfresh]
        simp [PendingReliableMessage.markSent, ReliableSession.queued]
      · rw [h.count m hold]
        simp [(ho.messageId_ne hold).symm]
    · intro m hm hone
      rcases (hmem m).mp hm with rfl | hold
      · exact List.mem_append_right _ (List.mem_singleton.mpr rfl)
      · exact List.mem_append_left _ (h.first m hold hone)
    · intro m hm hnever
      rcases (hmem m).mp hm with rfl | hold
      · have hone : ((rs.queued t d prio life now).markSent now).sendCount = 1 := rfl
        rw [hone] at hnever
        exact absurd hnever (by decide)
      · exact h.unsent m hold hnever

section Pass

variable {σ τ : Type} (label : UInt64 → τ) (now : UInt64)
  (fn : PendingReliableMessage → σ → Result Unit × σ)

/-- A callback that also lists what it has sent. -/
def noting (m : PendingReliableMessage) (s : σ × List τ) : Result Unit × σ × List τ :=
  match fn m s.1 with
  | (.error e, t) => (.error e, t, s.2)
  | (.ok (), t) => (.ok (), t, s.2 ++ [label m.messageId])

/-- One pass over a message: it is sent again, with its count and time, or not. -/
def Stamped (ids : List UInt64) (m m' : PendingReliableMessage) : Prop :=
  m'.messageId = m.messageId ∧
    if m.messageId ∈ ids then
      m'.sendCount = (m.markSent now).sendCount ∧ m'.firstSendMs = (m.markSent now).firstSendMs
    else m'.sendCount = m.sendCount ∧ m'.firstSendMs = m.firstSendMs

theorem timedOut_stamp (m : PendingReliableMessage) (rs : ReliableSession) :
    (timedOut m rs).1.sendCount = m.sendCount ∧ (timedOut m rs).1.firstSendMs = m.firstSendMs := by
  unfold timedOut
  split_ifs <;> exact ⟨rfl, rfl⟩

theorem forall₂_stamped_cons {id : UInt64} {ids : List UInt64}
    {l l' : List PendingReliableMessage} (hid : id ∉ l.map fun m => m.messageId)
    (h : List.Forall₂ (Stamped now ids) l l') : List.Forall₂ (Stamped now (id :: ids)) l l' := by
  induction h with
  | nil => exact .nil
  | cons hm _ ih =>
    rw [List.map_cons, List.mem_cons, not_or] at hid
    refine .cons ⟨hm.1, ?_⟩ (ih hid.2)
    simpa [List.mem_cons, Ne.symm hid.1] using hm.2

/-- Listing what is sent does not change the pass, and what is listed is stamped. -/
theorem resendLoop_noting (ms : List PendingReliableMessage) (rs : ReliableSession) (s : σ)
    (log : List τ) (hd : (ms.map fun m => m.messageId).Nodup) :
    ∃ ids, ids.Sublist (ms.map fun m => m.messageId) ∧
      resendLoop now (noting label fn) ms rs (s, log) =
        ((resendLoop now fn ms rs s).1, (resendLoop now fn ms rs s).2.1,
          (resendLoop now fn ms rs s).2.2.1, (resendLoop now fn ms rs s).2.2.2,
          log ++ ids.map label) ∧
      List.Forall₂ (Stamped now ids) ms (resendLoop now fn ms rs s).2.1 := by
  have hsame : ∀ l : List PendingReliableMessage, List.Forall₂ (Stamped now []) l l := by
    intro l
    exact List.forall₂_same.mpr fun m _ => ⟨rfl, by simp⟩
  have hstamp : ∀ m rs, Stamped now [] m (timedOut m rs).1 := by
    intro m rs
    refine ⟨timedOut_messageId m rs, ?_⟩
    rw [if_neg List.not_mem_nil]
    exact timedOut_stamp m rs
  induction ms generalizing rs s log with
  | nil => exact ⟨[], List.Sublist.refl _, by simp [resendLoop], .nil⟩
  | cons m ms ih =>
    rw [List.map_cons, List.nodup_cons] at hd
    -- The ids listed for the rest are not the id of the first message.
    have hweaken : ∀ ids : List UInt64, ids.Sublist (ms.map fun m => m.messageId) →
        m.messageId ∉ ids := fun ids hsub hmem => hd.1 (hsub.subset hmem)
    rw [resendLoop_cons, resendLoop_cons]
    by_cases hskip : (m.expired now || m.waiting now) = true
    · obtain ⟨ids, hsub, heq, hall⟩ := ih rs s log hd.2
      rw [if_pos hskip, if_pos hskip, heq]
      refine ⟨ids, hsub.cons _, rfl, .cons ⟨rfl, ?_⟩ hall⟩
      rw [if_neg (hweaken ids hsub)]
      exact ⟨rfl, rfl⟩
    rw [if_neg hskip, if_neg hskip]
    split_ifs with hfull
    · exact ⟨[], List.nil_sublist _, by simp, .cons (hstamp m rs) (hsame ms)⟩
    cases hf : fn (timedOut m rs).1 s with
    | mk rc s' =>
      cases rc with
      | error e =>
        have hnote : noting label fn (timedOut m rs).1 (s, log) = (.error e, s', log) := by
          simp [noting, hf]
        rw [hnote]
        exact ⟨[], List.nil_sublist _, by simp, .cons (hstamp m rs) (hsame ms)⟩
      | ok u =>
        have hnote : noting label fn (timedOut m rs).1 (s, log) =
            (.ok (), s', log ++ [label m.messageId]) := by
          simp [noting, hf, timedOut_messageId]
        obtain ⟨ids, hsub, heq, hall⟩ := ih (timedOut m rs).2.countSent s'
          (log ++ [label m.messageId]) hd.2
        rw [hnote]
        dsimp only
        rw [heq]
        refine ⟨m.messageId :: ids, hsub.cons_cons _, by simp, .cons ⟨timedOut_messageId m rs, ?_⟩
          (forall₂_stamped_cons now hd.1 hall)⟩
        obtain ⟨hcount, hfirst⟩ := timedOut_stamp m rs
        simp [PendingReliableMessage.markSent, hcount, hfirst]

/-- A pass transmits what it lists. -/
theorem Recorded.resendDue (h : rs.Recorded sent) (ho : rs.Ordered) (s : σ)
    (hcount : ∀ m ∈ rs.pending, m.sendCount.toNat + 1 < 2 ^ 32) :
    ∃ ids : List UInt64, rs.resendDue now (noting label fn) (s, []) =
        ((rs.resendDue now fn s).1, (rs.resendDue now fn s).2.1, (rs.resendDue now fn s).2.2,
          ids.map label) ∧
      (rs.resendDue now fn s).2.1.Recorded (sent ++ ids.map fun id => (id, now)) := by
  obtain ⟨ids, hsub, heq, hall⟩ := resendLoop_noting label now fn rs.pending rs s [] ho.distinct
  have hpend := (resendDue_fields now fn rs s).1
  have hnext := (sameNumbers_resendDue now fn rs s).nextMessageId
  have hnodup : ids.Nodup := ho.distinct.sublist hsub
  have hsucc : ∀ m ∈ rs.pending, (m.markSent now).sendCount.toNat = m.sendCount.toNat + 1 := by
    intro m hm
    change (m.sendCount + 1).toNat = _
    rw [UInt32.toNat_add]
    exact Nat.mod_eq_of_lt (hcount m hm)
  -- Every message of the queue was there before, stamped or not.
  have hold : ∀ m' ∈ (rs.resendDue now fn s).2.1.pending,
      ∃ m ∈ rs.pending, Stamped now ids m m' := by
    intro m' hm'
    rw [hpend] at hm'
    obtain ⟨i, hi, rfl⟩ := List.mem_iff_getElem.mp hm'
    have hi' : i < rs.pending.length := by rw [hall.length_eq]; exact hi
    exact ⟨rs.pending[i], List.getElem_mem hi', hall.get hi' hi⟩
  refine ⟨ids, ?_, ?_, ?_, ?_, ?_⟩
  · unfold ReliableSession.resendDue
    rw [heq]
    cases resendLoop now fn rs.pending rs s with
    | mk rc rest => cases rc <;> rfl
  · intro t ht
    rw [hnext]
    rcases List.mem_append.mp ht with ht | ht
    · exact h.below t ht
    · obtain ⟨id, hid, rfl⟩ := List.mem_map.mp ht
      obtain ⟨m, hm, rfl⟩ := List.mem_map.mp (hsub.subset hid)
      exact ho.below m hm
  · intro m' hm'
    obtain ⟨m, hm, hid, hstamp⟩ := hold m' hm'
    have hmap : (ids.map fun id => (id, now)).countP (fun t => t.1 = m'.messageId) =
        ids.count m'.messageId := by
      rw [List.countP_map, List.count]
      refine List.countP_congr fun id _ => ?_
      simp
    rw [List.countP_append, hmap, hid, h.count m hm]
    split_ifs at hstamp with hin
    · rw [List.count_eq_one_of_mem hnodup hin, hstamp.1, hsucc m hm]
    · rw [List.count_eq_zero_of_not_mem hin, hstamp.1, Nat.add_zero]
  · intro m' hm' hone
    obtain ⟨m, hm, hid, hstamp⟩ := hold m' hm'
    split_ifs at hstamp with hin
    · have hzero : m.sendCount = 0 := by
        have hnat := hsucc m hm
        rw [← hstamp.1, hone] at hnat
        exact UInt32.toNat_inj.mp (Nat.succ.inj hnat).symm
      have hfirst : m'.firstSendMs = now := by
        rw [hstamp.2]
        exact if_pos (h.unsent m hm hzero)
      rw [hid, hfirst]
      exact List.mem_append_right _ (List.mem_map_of_mem hin)
    · rw [hid, hstamp.2]
      exact List.mem_append_left _ (h.first m hm (hstamp.1.symm.trans hone))
  · intro m' hm' hnever
    obtain ⟨m, hm, -, hstamp⟩ := hold m' hm'
    split_ifs at hstamp with hin
    · have hnat := hsucc m hm
      rw [← hstamp.1, hnever] at hnat
      cases hnat
    · rw [hstamp.2]
      exact h.unsent m hm (hstamp.1.symm.trans hnever)

end Pass

/-! ### Packets of the peer -/

/-- What the packets of the peer do to a session: acknowledgements, and ids to be noted. -/
inductive Hears (rs : ReliableSession) : ReliableSession → Prop
  | refl : Hears rs rs
  | acknowledge {rs' : ReliableSession} (h : Hears rs rs') (messageId nowMs : UInt64) :
      Hears rs (rs'.acknowledge messageId nowMs).2
  | acceptIncoming {rs' : ReliableSession} (h : Hears rs rs') (messageId : UInt64) :
      Hears rs (rs'.acceptIncoming messageId).2

variable {rs' rs'' : ReliableSession}

theorem Hears.trans (h : rs.Hears rs') (h' : rs'.Hears rs'') : rs.Hears rs'' := by
  induction h' with
  | refl => exact h
  | acknowledge _ id now ih => exact .acknowledge ih id now
  | acceptIncoming _ id ih => exact .acceptIncoming ih id

theorem Hears.pending_sublist (h : rs.Hears rs') : rs'.pending.Sublist rs.pending := by
  induction h with
  | refl => exact List.Sublist.refl _
  | acknowledge _ id now ih =>
    rw [acknowledge_pending]
    exact List.eraseP_sublist.trans ih
  | acceptIncoming _ id ih => exact ih

theorem Hears.cfg (h : rs.Hears rs') : rs'.cfg = rs.cfg := by
  induction h with
  | refl => rfl
  | acknowledge _ id now ih => exact (sameNumbers_acknowledge id now _).cfg.trans ih
  | acceptIncoming _ id ih => exact ih

theorem Hears.nextMessageId (h : rs.Hears rs') : rs'.nextMessageId = rs.nextMessageId := by
  induction h with
  | refl => rfl
  | acknowledge _ id now ih => exact (sameNumbers_acknowledge id now _).nextMessageId.trans ih
  | acceptIncoming _ id ih => exact ih

theorem Hears.counted (h : rs.Hears rs') (hc : rs.Counted) : rs'.Counted := by
  induction h with
  | refl => exact hc
  | acknowledge _ id now ih => exact ih.acknowledge id now
  | acceptIncoming _ id ih => exact ⟨ih.pendingBytes, ih.inflightCount, ih.maxInflight, ih.maxPending⟩

theorem Hears.sound (h : rs.Hears rs') (hs : rs.Sound) : rs'.Sound :=
  ⟨h.counted hs.counted, hs.ordered.sublist h.pending_sublist h.nextMessageId⟩

end ReliableSession

end SecureCnet
