import SecureCnet.Delivery.ReliableSession

/-!
# Runs of a reliable session

Every operation keeps the redundant counters of the queue right: the bytes, the number of
messages in flight, the two limits, the order of the queue and the ids. From the counters
follows which messages a retransmission pass hands to its callback.
-/

namespace SecureCnet

namespace PendingReliableMessage

/-- In flight and still wanted, with its retransmission timer over. -/
def Overdue (nowMs : UInt64) (m : PendingReliableMessage) : Prop :=
  m.inflight = true ∧ m.expired nowMs = false ∧ m.rtoMs ≤ nowMs - m.lastSendMs

instance (nowMs : UInt64) (m : PendingReliableMessage) : Decidable (m.Overdue nowMs) :=
  inferInstanceAs (Decidable (_ ∧ _))

/-- Waiting for its first transmission, or for the next one after its timer ran out. -/
def ready (nowMs : UInt64) (m : PendingReliableMessage) : Bool :=
  !m.inflight && !m.expired nowMs

def place (m : PendingReliableMessage) : UInt64 × SendPriority := (m.messageId, m.priority)

/-- The place of a message that stands before another one: higher priority, or the same and
older. -/
def Precedes (a b : UInt64 × SendPriority) : Prop :=
  b.2.rank ≤ a.2.rank ∧ (a.2.rank = b.2.rank → a.1 < b.1)

def Before (a b : PendingReliableMessage) : Prop := Precedes a.place b.place

@[simp] theorem markSent_inflight (nowMs : UInt64) (m : PendingReliableMessage) :
    (m.markSent nowMs).inflight = true := rfl
@[simp] theorem markSent_encodedPayload (nowMs : UInt64) (m : PendingReliableMessage) :
    (m.markSent nowMs).encodedPayload = m.encodedPayload := rfl
@[simp] theorem markSent_place (nowMs : UInt64) (m : PendingReliableMessage) :
    (m.markSent nowMs).place = m.place := rfl

end PendingReliableMessage

namespace ReliableSession

/-- The encoded bytes of a queue. -/
def bytes (ms : List PendingReliableMessage) : ℕ := (ms.map fun m => m.encodedPayload.length).sum

def flying (ms : List PendingReliableMessage) : ℕ := ms.countP fun m => m.inflight

/-- The counters are those of the queue, and the limits hold. -/
structure Counted (rs : ReliableSession) : Prop where
  pendingBytes : rs.pendingBytes = UInt32.ofNat (bytes rs.pending)
  inflightCount : rs.inflightCount.toNat = flying rs.pending
  maxInflight : rs.inflightCount ≤ rs.cfg.maxInflightMessages
  maxPending : rs.pending.length ≤ rs.cfg.maxPendingMessages.toNat

/-- The queue is in order and its ids are from 1 up to the last one given out. -/
structure Ordered (rs : ReliableSession) : Prop where
  sorted : rs.pending.Pairwise PendingReliableMessage.Before
  distinct : (rs.pending.map fun m => m.messageId).Nodup
  nonzero : ∀ m ∈ rs.pending, m.messageId ≠ 0
  below : ∀ m ∈ rs.pending, m.messageId < rs.nextMessageId

/-- The states of a session after `configure`, with the number of `enqueue` calls so far. -/
inductive Runs (cfg : ReliabilityConfig) : ℕ → ReliableSession → Prop
  | configure : Runs cfg 0 (configure cfg {})
  | enqueue {n : ℕ} {rs : ReliableSession} (h : Runs cfg n rs) (userType : UInt8) (data : Bytes)
      (hlen : data.length < 2 ^ 16) (priority : SendPriority) (lifetimeMs nowMs : UInt64) :
      Runs cfg (n + 1) (rs.enqueue userType data priority lifetimeMs nowMs).2
  | acknowledge {n : ℕ} {rs : ReliableSession} (h : Runs cfg n rs) (messageId nowMs : UInt64) :
      Runs cfg n (rs.acknowledge messageId nowMs).2
  | noteSent {n : ℕ} {rs : ReliableSession} (h : Runs cfg n rs) (messageId nowMs : UInt64) :
      Runs cfg n (rs.noteSent messageId nowMs).2
  | resendDue {n : ℕ} {rs : ReliableSession} (h : Runs cfg n rs) {σ : Type} (nowMs : UInt64)
      (fn : PendingReliableMessage → σ → Result Unit × σ) (s : σ) :
      Runs cfg n (rs.resendDue nowMs fn s).2.1
  | expireOld {n : ℕ} {rs : ReliableSession} (h : Runs cfg n rs) (nowMs : UInt64) :
      Runs cfg n (rs.expireOld nowMs).2
  | acceptIncoming {n : ℕ} {rs : ReliableSession} (h : Runs cfg n rs) (messageId : UInt64) :
      Runs cfg n (rs.acceptIncoming messageId).2
  | clear {n : ℕ} {rs : ReliableSession} (h : Runs cfg n rs) : Runs cfg n rs.clear

variable {rs : ReliableSession} {m x : PendingReliableMessage} {ms : List PendingReliableMessage}
  {k : ℕ}

@[simp] theorem bytes_nil : bytes [] = 0 := rfl
@[simp] theorem flying_nil : flying [] = 0 := rfl

@[simp] theorem bytes_cons (m : PendingReliableMessage) (ms : List PendingReliableMessage) :
    bytes (m :: ms) = m.encodedPayload.length + bytes ms := rfl

@[simp] theorem flying_cons (m : PendingReliableMessage) (ms : List PendingReliableMessage) :
    flying (m :: ms) = flying ms + m.inflight.toNat := by
  unfold flying
  rw [List.countP_cons]
  cases m.inflight <;> rfl

@[simp] theorem bytes_append (l r : List PendingReliableMessage) :
    bytes (l ++ r) = bytes l + bytes r := by
  simp [bytes]

@[simp] theorem flying_append (l r : List PendingReliableMessage) :
    flying (l ++ r) = flying l + flying r := List.countP_append

theorem bytes_perm {l r : List PendingReliableMessage} (h : l.Perm r) : bytes l = bytes r :=
  (h.map _).sum_eq

theorem flying_perm {l r : List PendingReliableMessage} (h : l.Perm r) : flying l = flying r :=
  h.countP_eq _

/-! ### Enqueue -/

theorem insertPending_perm (m : PendingReliableMessage) (ms : List PendingReliableMessage) :
    (insertPending m ms).Perm (m :: ms) :=
  List.perm_orderedInsert _ m ms

/-- A message with a new id goes behind those of its priority. -/
theorem pairwise_insertPending (h : ms.Pairwise PendingReliableMessage.Before)
    (hnew : ∀ x ∈ ms, x.messageId < m.messageId) :
    (insertPending m ms).Pairwise PendingReliableMessage.Before := by
  induction ms with
  | nil => exact List.pairwise_singleton _ _
  | cons x ms ih =>
    obtain ⟨hx, hms⟩ := List.pairwise_cons.mp h
    unfold insertPending
    rw [List.orderedInsert_cons]
    split_ifs with hlow
    · -- Everything from the first message of lower priority on has a lower priority.
      refine List.pairwise_cons.mpr ⟨fun y hy => ?_, h⟩
      have hy' : y.priority.rank ≤ x.priority.rank := by
        rcases List.mem_cons.mp hy with rfl | hy
        · exact le_rfl
        · exact (hx y hy).1
      have hlt : y.priority.rank < m.priority.rank := hy'.trans_lt hlow
      exact ⟨hlt.le, fun heq => absurd heq hlt.ne.symm⟩
    · refine List.pairwise_cons.mpr ⟨fun y hy => ?_, ih hms fun y hy => hnew y (by simp [hy])⟩
      rcases mem_insertPending.mp hy with rfl | hy
      · exact ⟨not_lt.mp hlow, fun _ => hnew x (by simp)⟩
      · exact hx y hy

theorem Counted.enqueue (h : rs.Counted) (t : UInt8) (d : Bytes) (prio : SendPriority)
    (life now : UInt64) : (rs.enqueue t d prio life now).2.Counted := by
  rcases rs.enqueue_eq t d prio life now with ⟨msg, he, -⟩ | ⟨msg, he, -⟩ | ⟨he, -, -, hroom, -⟩
  · rw [he]
    exact h
  · rw [he]
    exact ⟨h.pendingBytes, h.inflightCount, h.maxInflight, h.maxPending⟩
  · have hperm := insertPending_perm (rs.queued t d prio life now) rs.pending
    rw [he]
    refine ⟨?_, ?_, h.maxInflight, ?_⟩
    · dsimp only
      rw [bytes_perm hperm, bytes_cons, h.pendingBytes, ← UInt32.ofNat_add, Nat.add_comm]
      simp [queued]
    · dsimp only
      rw [flying_perm hperm, flying_cons, h.inflightCount]
      rfl
    · dsimp only
      rw [hperm.length_eq]
      exact hroom

theorem Ordered.enqueue (h : rs.Ordered) (hnext : rs.nextMessageId.toNat + 1 < 2 ^ 64) (t : UInt8)
    (d : Bytes) (prio : SendPriority) (life now : UInt64) :
    (rs.enqueue t d prio life now).2.Ordered := by
  have hsucc : rs.nextMessageId < rs.nextMessageId + 1 := by
    rw [UInt64.lt_iff_toNat_lt, UInt64.toNat_add]
    rw [show (1 : UInt64).toNat = 1 from rfl, Nat.mod_eq_of_lt hnext]
    exact Nat.lt_succ_self _
  have hbelow : ∀ x ∈ rs.pending, x.messageId < rs.nextMessageId + 1 :=
    fun x hx => UInt64.lt_trans (h.below x hx) hsucc
  rcases rs.enqueue_eq t d prio life now with ⟨msg, he, -⟩ | ⟨msg, he, -⟩ | ⟨he, hid, -⟩
  · rw [he]
    exact h
  · rw [he]
    exact ⟨h.sorted, h.distinct, h.nonzero, hbelow⟩
  · have hperm := insertPending_perm (rs.queued t d prio life now) rs.pending
    have hmem : ∀ x ∈ insertPending (rs.queued t d prio life now) rs.pending,
        x = rs.queued t d prio life now ∨ x ∈ rs.pending := fun x => mem_insertPending.mp
    rw [he]
    refine ⟨pairwise_insertPending h.sorted h.below, ?_, ?_, ?_⟩
    · refine (hperm.map _).nodup_iff.mpr (List.nodup_cons.mpr ⟨fun hx => ?_, h.distinct⟩)
      obtain ⟨x, hx, heq⟩ := List.mem_map.mp hx
      have hlt := h.below x hx
      rw [heq] at hlt
      exact UInt64.lt_irrefl _ hlt
    · intro x hx
      rcases hmem x hx with rfl | hx
      · exact hid
      · exact h.nonzero x hx
    · intro x hx
      rcases hmem x hx with rfl | hx
      · exact hsucc
      · exact hbelow x hx

theorem Ordered.sublist {rs' : ReliableSession} (h : rs.Ordered)
    (hsub : rs'.pending.Sublist rs.pending) (hnext : rs'.nextMessageId = rs.nextMessageId) :
    rs'.Ordered where
  sorted := h.sorted.sublist hsub
  distinct := h.distinct.sublist (hsub.map _)
  nonzero m hm := h.nonzero m (hsub.subset hm)
  below m hm := hnext ▸ h.below m (hsub.subset hm)

open PendingReliableMessage (place) in
/-- So is the same queue with other timers. -/
theorem Ordered.of_place {rs' : ReliableSession} (h : rs.Ordered)
    (hplace : rs'.pending.map place = rs.pending.map place)
    (hnext : rs'.nextMessageId = rs.nextMessageId) : rs'.Ordered := by
  have hids : rs'.pending.map (fun m => m.messageId) = rs.pending.map fun m => m.messageId := by
    have hfst := congrArg (List.map Prod.fst) hplace
    simpa [List.map_map, place, Function.comp_def] using hfst
  have hmem : ∀ m ∈ rs'.pending, ∃ x ∈ rs.pending, x.messageId = m.messageId := by
    intro m hm
    have hmap : m.messageId ∈ rs'.pending.map fun m => m.messageId := List.mem_map_of_mem hm
    rw [hids] at hmap
    exact List.mem_map.mp hmap
  refine ⟨?_, hids ▸ h.distinct, ?_, ?_⟩
  · have hsorted : (rs.pending.map place).Pairwise PendingReliableMessage.Precedes :=
      List.pairwise_map.mpr h.sorted
    rw [← hplace, List.pairwise_map] at hsorted
    exact hsorted
  · intro m hm
    obtain ⟨x, hx, heq⟩ := hmem m hm
    exact heq ▸ h.nonzero x hx
  · intro m hm
    obtain ⟨x, hx, heq⟩ := hmem m hm
    rw [hnext, ← heq]
    exact h.below x hx

/-! ### Acknowledgements, transmissions and expiry -/

theorem forget_inflightCount (m : PendingReliableMessage) (rs : ReliableSession) :
    (rs.forget m).inflightCount.toNat = rs.inflightCount.toNat - m.inflight.toNat := by
  unfold forget
  by_cases hpos : 0 < rs.inflightCount
  · have hle : (1 : UInt32) ≤ rs.inflightCount := by
      rw [UInt32.lt_iff_toNat_lt] at hpos
      exact UInt32.le_iff_toNat_le.mpr hpos
    have hsub := UInt32.toNat_sub_of_le _ _ hle
    cases m.inflight <;> simp [hpos, hsub]
  · have hzero : rs.inflightCount.toNat = 0 := by
      rw [UInt32.lt_iff_toNat_lt, UInt32.toNat_zero] at hpos
      omega
    simp [hpos, hzero]

theorem ofNat_add_sub (a b : ℕ) : UInt32.ofNat (a + b) - UInt32.ofNat a = UInt32.ofNat b := by
  rw [UInt32.ofNat_add, UInt32.add_comm, UInt32.add_sub_cancel]

theorem foldl_forget {gone : List PendingReliableMessage} {b : ℕ}
    (hcount : rs.inflightCount.toNat = flying gone + k)
    (hbytes : rs.pendingBytes = UInt32.ofNat (bytes gone + b)) :
    (gone.foldl (fun rs m => rs.forget m) rs).inflightCount.toNat = k ∧
      (gone.foldl (fun rs m => rs.forget m) rs).pendingBytes = UInt32.ofNat b := by
  induction gone generalizing rs with
  | nil => exact ⟨by simpa using hcount, by simpa using hbytes⟩
  | cons m gone ih =>
    refine ih ?_ ?_
    · rw [forget_inflightCount, hcount, flying_cons]
      omega
    · change rs.pendingBytes - UInt32.ofNat m.encodedPayload.length = _
      rw [hbytes, bytes_cons, Nat.add_assoc, ofNat_add_sub]

theorem replaceF_append_of_none {α : Type} {f : α → Option α} {l : List α}
    (hl : ∀ x ∈ l, f x = none) (r : List α) : (l ++ r).replaceF f = l ++ r.replaceF f := by
  induction l with
  | nil => rfl
  | cons x l ih =>
    rw [List.cons_append, List.replaceF_cons_of_none _ (hl x (by simp)),
      ih fun y hy => hl y (by simp [hy])]
    rfl

/-- The message with an id, where it stands in the queue. -/
theorem find?_split {id : UInt64} (h : ms.find? (fun m => m.messageId = id) = some m) :
    ∃ l r, ms = l ++ m :: r ∧ m.messageId = id ∧
      ms.eraseP (fun m => m.messageId = id) = l ++ r ∧
      ∀ now, (ms.replaceF fun m => if m.messageId = id then some (m.markSent now) else none) =
        l ++ m.markSent now :: r := by
  obtain ⟨hid, l, r, rfl, hl⟩ := List.find?_eq_some_iff_append.mp h
  rw [decide_eq_true_eq] at hid
  have hne : ∀ x ∈ l, x.messageId ≠ id := by simpa using hl
  refine ⟨l, r, rfl, hid, ?_, fun now => ?_⟩
  · rw [List.eraseP_append_right _ (by simpa using hne), List.eraseP_cons_of_pos (by simpa using hid)]
  · rw [replaceF_append_of_none (fun x hx => if_neg (hne x hx)), List.replaceF_cons]
    simp [hid]

@[simp] theorem updateRtt_counters (sample : UInt64) (rs : ReliableSession) :
    (rs.updateRtt sample).pendingBytes = rs.pendingBytes ∧
      (rs.updateRtt sample).inflightCount = rs.inflightCount ∧
      (rs.updateRtt sample).cfg = rs.cfg := by
  unfold updateRtt
  cases rs.haveRtt <;> exact ⟨rfl, rfl, rfl⟩

theorem acknowledge_counters {id : UInt64}
    (h : rs.pending.find? (fun m => m.messageId = id) = some m) (now : UInt64) :
    (rs.acknowledge id now).2.pendingBytes = (rs.forget m).pendingBytes ∧
      (rs.acknowledge id now).2.inflightCount = (rs.forget m).inflightCount := by
  unfold acknowledge
  rw [h]
  dsimp only
  split_ifs
  · exact ⟨(updateRtt_counters _ _).1, (updateRtt_counters _ _).2.1⟩
  · exact ⟨rfl, rfl⟩

theorem Counted.acknowledge (h : rs.Counted) (id now : UInt64) :
    (rs.acknowledge id now).2.Counted := by
  cases hf : rs.pending.find? fun m => m.messageId = id with
  | none =>
    unfold ReliableSession.acknowledge
    rw [hf]
    exact h
  | some m =>
    obtain ⟨l, r, hq, -, herase, -⟩ := find?_split hf
    obtain ⟨hb, hc⟩ := acknowledge_counters hf now
    have hpending := acknowledge_pending id now rs
    have hcfg := (sameNumbers_acknowledge id now rs).cfg
    have hcount := h.inflightCount
    have hbytes := h.pendingBytes
    have hlen := h.maxPending
    rw [hq] at hcount hbytes hlen
    have hle : (rs.acknowledge id now).2.inflightCount.toNat ≤ rs.inflightCount.toNat := by
      rw [hc, forget_inflightCount]
      exact Nat.sub_le _ _
    refine ⟨?_, ?_, ?_, ?_⟩
    · rw [hb, hpending, herase]
      change rs.pendingBytes - UInt32.ofNat m.encodedPayload.length = _
      rw [hbytes, show bytes (l ++ m :: r) = m.encodedPayload.length + bytes (l ++ r) by
        simp; omega, ofNat_add_sub]
    · rw [hc, forget_inflightCount, hpending, herase, hcount]
      simp
      omega
    · rw [hcfg]
      exact UInt32.le_trans (UInt32.le_iff_toNat_le.mpr hle) h.maxInflight
    · rw [hpending, herase, hcfg]
      simp at hlen ⊢
      omega

theorem Ordered.acknowledge (h : rs.Ordered) (id now : UInt64) :
    (rs.acknowledge id now).2.Ordered := by
  refine h.sublist ?_ (sameNumbers_acknowledge id now rs).nextMessageId
  rw [acknowledge_pending]
  exact List.eraseP_sublist

/-- What `note_sent` does: nothing, or one transmission of the message with the id. -/
theorem noteSent_eq (id now : UInt64) (rs : ReliableSession) :
    (rs.noteSent id now = (false, rs)) ∨
      ∃ l m r, rs.pending = l ++ m :: r ∧ m.messageId = id ∧
        (m.inflight = false → rs.inflightCount < rs.cfg.maxInflightMessages) ∧
        rs.noteSent id now = (true, { rs with
          inflightCount := if m.inflight then rs.inflightCount else rs.inflightCount + 1
          pending := l ++ m.markSent now :: r }) := by
  unfold noteSent
  cases hf : rs.pending.find? fun m => m.messageId = id with
  | none => exact Or.inl rfl
  | some m =>
    obtain ⟨l, r, hq, hid, -, hreplace⟩ := find?_split hf
    dsimp only
    split_ifs with hfull hfly
    · exact Or.inl rfl
    all_goals
      refine Or.inr ⟨l, m, r, hq, hid, fun hidle => ?_, ?_⟩
      · rw [hidle] at hfull
        simpa using hfull
      · rw [hreplace]
        simp [hfly]

theorem toNat_succ_of_lt {a b : UInt32} (h : a < b) : (a + 1).toNat = a.toNat + 1 := by
  rw [UInt32.lt_iff_toNat_lt] at h
  have hb := b.toNat_lt
  rw [UInt32.toNat_add]
  exact Nat.mod_eq_of_lt (by simp; omega)

theorem succ_le_of_lt {a b : UInt32} (h : a < b) : a + 1 ≤ b := by
  rw [UInt32.le_iff_toNat_le, toNat_succ_of_lt h]
  exact UInt32.lt_iff_toNat_lt.mp h

theorem Counted.noteSent (h : rs.Counted) (id now : UInt64) : (rs.noteSent id now).2.Counted := by
  rcases rs.noteSent_eq id now with he | ⟨l, m, r, hq, -, hroom, he⟩
  · rw [he]
    exact h
  · rw [he]
    have hcount := h.inflightCount
    have hbytes := h.pendingBytes
    have hlen := h.maxPending
    rw [hq] at hcount hbytes hlen
    refine ⟨?_, ?_, ?_, ?_⟩
    · simpa using hbytes
    · cases hfly : m.inflight with
      | true => simpa [hfly] using hcount
      | false =>
        simp [toNat_succ_of_lt (hroom hfly), hcount, hfly]
        omega
    · cases hfly : m.inflight with
      | true => simpa using h.maxInflight
      | false => simpa using succ_le_of_lt (hroom hfly)
    · simpa using hlen

theorem Ordered.noteSent (h : rs.Ordered) (id now : UInt64) : (rs.noteSent id now).2.Ordered := by
  rcases rs.noteSent_eq id now with he | ⟨l, m, r, hq, -, -, he⟩
  · rw [he]
    exact h
  · rw [he]
    refine h.of_place ?_ rfl
    dsimp only
    rw [hq]
    simp

theorem flying_filter (p : PendingReliableMessage → Bool) (ms : List PendingReliableMessage) :
    flying ms = flying (ms.filter p) + flying (ms.filter fun m => !p m) := by
  induction ms with
  | nil => rfl
  | cons m ms ih => cases hp : p m <;> simp [hp, ih] <;> omega

theorem bytes_filter (p : PendingReliableMessage → Bool) (ms : List PendingReliableMessage) :
    bytes ms = bytes (ms.filter p) + bytes (ms.filter fun m => !p m) := by
  induction ms with
  | nil => rfl
  | cons m ms ih => cases hp : p m <;> simp [hp, ih] <;> omega

theorem Counted.expireOld (h : rs.Counted) (now : UInt64) : (rs.expireOld now).2.Counted := by
  have hcfg := (sameNumbers_expireOld now rs).cfg
  obtain ⟨hcount, hbytes⟩ := foldl_forget
    (h.inflightCount.trans (flying_filter (fun m => m.expired now) rs.pending))
    (h.pendingBytes.trans (congrArg _ (bytes_filter (fun m => m.expired now) rs.pending)))
  refine ⟨hbytes, hcount, ?_, ?_⟩
  · rw [hcfg, UInt32.le_iff_toNat_le]
    refine le_trans ?_ (UInt32.le_iff_toNat_le.mp h.maxInflight)
    refine hcount.trans_le ?_
    rw [h.inflightCount, flying_filter (fun m => m.expired now) rs.pending]
    exact Nat.le_add_left _ _
  · rw [hcfg]
    exact (List.length_filter_le _ _).trans h.maxPending

theorem Ordered.expireOld (h : rs.Ordered) (now : UInt64) : (rs.expireOld now).2.Ordered :=
  h.sublist List.filter_sublist (sameNumbers_expireOld now rs).nextMessageId

/-! ### The retransmission pass -/

/-- A message the pass does not skip, taken out of flight if its timer ran out. -/
def timedOut (m : PendingReliableMessage) (rs : ReliableSession) :
    PendingReliableMessage × ReliableSession :=
  if m.inflight then
    ({ m with
        inflight := false
        rtoMs := min rs.cfg.maxRtoMs (max rs.cfg.minRtoMs (m.rtoMs * 2)) },
      { rs with
        lossEvents := rs.lossEvents + 1, retransmitEvents := rs.retransmitEvents + 1
        inflightCount :=
          if 0 < rs.inflightCount then rs.inflightCount - 1 else rs.inflightCount })
  else (m, rs)

/-- One more message is in flight. -/
def countSent (rs : ReliableSession) : ReliableSession :=
  { rs with inflightCount := rs.inflightCount + 1 }

variable {σ : Type} (now : UInt64) (fn : PendingReliableMessage → σ → Result Unit × σ)

/-- One message of the pass. -/
theorem resendLoop_cons (m : PendingReliableMessage) (ms : List PendingReliableMessage)
    (rs : ReliableSession) (s : σ) :
    resendLoop now fn (m :: ms) rs s =
      if m.expired now || m.waiting now then
        ((resendLoop now fn ms rs s).1, m :: (resendLoop now fn ms rs s).2.1,
          (resendLoop now fn ms rs s).2.2)
      else if (timedOut m rs).2.cfg.maxInflightMessages ≤ (timedOut m rs).2.inflightCount then
        (.ok (), (timedOut m rs).1 :: ms, (timedOut m rs).2, s)
      else
        match fn (timedOut m rs).1 s with
        | (.error e, s) => (.error e, (timedOut m rs).1 :: ms, (timedOut m rs).2, s)
        | (.ok (), s) =>
          let rest := resendLoop now fn ms (timedOut m rs).2.countSent s
          (rest.1, (timedOut m rs).1.markSent now :: rest.2.1, rest.2.2) := rfl

theorem timedOut_cfg (m : PendingReliableMessage) (rs : ReliableSession) :
    (timedOut m rs).2.cfg = rs.cfg := by
  unfold timedOut
  split_ifs <;> rfl

theorem timedOut_pendingBytes (m : PendingReliableMessage) (rs : ReliableSession) :
    (timedOut m rs).2.pendingBytes = rs.pendingBytes := by
  unfold timedOut
  split_ifs <;> rfl

theorem timedOut_place (m : PendingReliableMessage) (rs : ReliableSession) :
    (timedOut m rs).1.place = m.place := by
  unfold timedOut
  split_ifs <;> rfl

theorem timedOut_encodedPayload (m : PendingReliableMessage) (rs : ReliableSession) :
    (timedOut m rs).1.encodedPayload = m.encodedPayload := by
  unfold timedOut
  split_ifs <;> rfl

theorem timedOut_inflight (m : PendingReliableMessage) (rs : ReliableSession) :
    (timedOut m rs).1.inflight = false := by
  unfold timedOut
  cases hfly : m.inflight with
  | true => rfl
  | false => exact hfly

theorem timedOut_inflightCount (m : PendingReliableMessage) (rs : ReliableSession) :
    (timedOut m rs).2.inflightCount.toNat = rs.inflightCount.toNat - m.inflight.toNat := by
  have hforget := forget_inflightCount m rs
  unfold timedOut
  cases hfly : m.inflight with
  | true =>
    rw [← hfly, ← hforget]
    simp [forget, hfly]
  | false => rfl

/-- The pass keeps the counters right; `k` messages in flight stand before the ones it sees. -/
theorem resendLoop_counted (ms : List PendingReliableMessage) (rs : ReliableSession) (s : σ)
    (hcount : rs.inflightCount.toNat = k + flying ms)
    (hmax : rs.inflightCount ≤ rs.cfg.maxInflightMessages) :
    (resendLoop now fn ms rs s).2.2.1.inflightCount.toNat =
        k + flying (resendLoop now fn ms rs s).2.1 ∧
      (resendLoop now fn ms rs s).2.2.1.inflightCount ≤ rs.cfg.maxInflightMessages ∧
      (resendLoop now fn ms rs s).2.2.1.pendingBytes = rs.pendingBytes ∧
      bytes (resendLoop now fn ms rs s).2.1 = bytes ms ∧
      (resendLoop now fn ms rs s).2.1.map PendingReliableMessage.place =
        ms.map PendingReliableMessage.place := by
  induction ms generalizing k rs s with
  | nil => exact ⟨hcount, hmax, rfl, rfl, rfl⟩
  | cons m ms ih =>
    rw [flying_cons] at hcount
    rw [resendLoop_cons]
    by_cases hskip : (m.expired now || m.waiting now) = true
    · rw [if_pos hskip]
      obtain ⟨h1, h2, h3, h4, h5⟩ := ih (k := k + m.inflight.toNat) rs s (by omega) hmax
      refine ⟨?_, h2, h3, by simp [h4], by simp [h5]⟩
      rw [h1, flying_cons]
      omega
    rw [if_neg hskip]
    -- What is left of the count once the message at hand is out of flight.
    have hout : (timedOut m rs).2.inflightCount.toNat = k + flying ms := by
      rw [timedOut_inflightCount]
      omega
    have hmax' : (timedOut m rs).2.inflightCount ≤ rs.cfg.maxInflightMessages := by
      rw [UInt32.le_iff_toNat_le] at hmax ⊢
      rw [timedOut_inflightCount]
      omega
    have hstop : (timedOut m rs).2.inflightCount.toNat = k + flying ((timedOut m rs).1 :: ms) ∧
        (timedOut m rs).2.inflightCount ≤ rs.cfg.maxInflightMessages ∧
        (timedOut m rs).2.pendingBytes = rs.pendingBytes ∧
        bytes ((timedOut m rs).1 :: ms) = bytes (m :: ms) ∧
        ((timedOut m rs).1 :: ms).map PendingReliableMessage.place =
          (m :: ms).map PendingReliableMessage.place := by
      refine ⟨?_, hmax', timedOut_pendingBytes m rs, ?_, ?_⟩
      · rw [flying_cons, timedOut_inflight]
        exact hout
      · rw [bytes_cons, bytes_cons, timedOut_encodedPayload]
      · rw [List.map_cons, List.map_cons, timedOut_place]
    split_ifs with hfull
    · exact hstop
    · rw [timedOut_cfg, UInt32.not_le] at hfull
      cases hf : fn (timedOut m rs).1 s with
      | mk rc s' =>
        cases rc with
        | error e => exact hstop
        | ok u =>
          have hcfg : (timedOut m rs).2.countSent.cfg = rs.cfg := timedOut_cfg m rs
          have hsent : (timedOut m rs).2.countSent.inflightCount.toNat = k + 1 + flying ms := by
            rw [countSent, toNat_succ_of_lt hfull, hout]
            omega
          obtain ⟨h1, h2, h3, h4, h5⟩ := ih (timedOut m rs).2.countSent s' hsent
            (hcfg ▸ succ_le_of_lt hfull)
          rw [hcfg] at h2
          refine ⟨?_, h2, h3.trans (timedOut_pendingBytes m rs), ?_, ?_⟩
          · rw [flying_cons, PendingReliableMessage.markSent_inflight, Bool.toNat_true]
            refine h1.trans ?_
            omega
          · rw [bytes_cons, bytes_cons, h4, PendingReliableMessage.markSent_encodedPayload,
              timedOut_encodedPayload]
          · rw [List.map_cons, List.map_cons, h5, PendingReliableMessage.markSent_place,
              timedOut_place]

theorem resendDue_fields (rs : ReliableSession) (s : σ) :
    (rs.resendDue now fn s).2.1.pending = (resendLoop now fn rs.pending rs s).2.1 ∧
      (rs.resendDue now fn s).2.1.pendingBytes =
        (resendLoop now fn rs.pending rs s).2.2.1.pendingBytes ∧
      (rs.resendDue now fn s).2.1.inflightCount =
        (resendLoop now fn rs.pending rs s).2.2.1.inflightCount ∧
      (rs.resendDue now fn s).2.2 = (resendLoop now fn rs.pending rs s).2.2.2 := by
  unfold resendDue
  cases resendLoop now fn rs.pending rs s with
  | mk rc rest =>
    cases rc with
    | error e => exact ⟨rfl, rfl, rfl, rfl⟩
    | ok u => exact ⟨rfl, rfl, rfl, rfl⟩

theorem sameNumbers_resendDue (now : UInt64) (fn : PendingReliableMessage → σ → Result Unit × σ)
    (rs : ReliableSession) (s : σ) : SameNumbers rs (rs.resendDue now fn s).2.1 :=
  (resendDue_spec now fn (fun _ => True) rs (fun _ _ _ _ => trivial) s trivial).2.1

theorem Counted.resendDue (h : rs.Counted) (now : UInt64)
    (fn : PendingReliableMessage → σ → Result Unit × σ) (s : σ) :
    (rs.resendDue now fn s).2.1.Counted := by
  obtain ⟨hpending, hbytes, hcount, -⟩ := resendDue_fields now fn rs s
  obtain ⟨h1, h2, h3, h4, h5⟩ := resendLoop_counted now fn rs.pending (k := 0) rs s
    (by rw [h.inflightCount, Nat.zero_add]) h.maxInflight
  have hcfg := (sameNumbers_resendDue now fn rs s).cfg
  refine ⟨?_, ?_, ?_, ?_⟩
  · rw [hbytes, h3, hpending, h4, h.pendingBytes]
  · rw [hcount, h1, hpending, Nat.zero_add]
  · rw [hcount, hcfg]
    exact h2
  · have hlen := congrArg List.length h5
    rw [List.length_map, List.length_map] at hlen
    rw [hpending, hcfg, hlen]
    exact h.maxPending

theorem Ordered.resendDue (h : rs.Ordered) (hc : rs.Counted) (now : UInt64)
    (fn : PendingReliableMessage → σ → Result Unit × σ) (s : σ) :
    (rs.resendDue now fn s).2.1.Ordered := by
  obtain ⟨hpending, -⟩ := resendDue_fields now fn rs s
  obtain ⟨-, -, -, -, h5⟩ := resendLoop_counted now fn rs.pending (k := 0) rs s
    (by rw [hc.inflightCount, Nat.zero_add]) hc.maxInflight
  exact h.of_place (hpending ▸ h5) (sameNumbers_resendDue now fn rs s).nextMessageId

/-! ### Whole runs -/

theorem counted_configure (cfg : ReliabilityConfig) : (configure cfg {}).Counted where
  pendingBytes := rfl
  inflightCount := rfl
  maxInflight := UInt32.le_iff_toNat_le.mpr (Nat.zero_le _)
  maxPending := Nat.zero_le _

theorem counted_clear (rs : ReliableSession) : rs.clear.Counted where
  pendingBytes := rfl
  inflightCount := rfl
  maxInflight := UInt32.le_iff_toNat_le.mpr (Nat.zero_le _)
  maxPending := Nat.zero_le _

theorem ordered_of_nil (h : rs.pending = []) : rs.Ordered where
  sorted := h ▸ .nil
  distinct := h ▸ .nil
  nonzero m hm := by
    rw [h] at hm
    cases hm
  below m hm := by
    rw [h] at hm
    cases hm

variable {cfg : ReliabilityConfig} {n : ℕ}

theorem Runs.cfg_eq (h : Runs cfg n rs) : rs.cfg = cfg := by
  induction h with
  | configure => rfl
  | enqueue h t d hlen prio life now ih =>
    rename_i rs
    rcases rs.enqueue_eq t d prio life now with ⟨msg, he, -⟩ | ⟨msg, he, -⟩ | ⟨he, -⟩
    all_goals
      rw [he]
      exact ih
  | acknowledge h id now ih => exact (sameNumbers_acknowledge id now _).cfg.trans ih
  | noteSent h id now ih => exact (sameNumbers_noteSent id now _).cfg.trans ih
  | resendDue h now fn s ih => exact (sameNumbers_resendDue now fn _ s).cfg.trans ih
  | expireOld h now ih => exact (sameNumbers_expireOld now _).cfg.trans ih
  | acceptIncoming h id ih => exact ih
  | clear h ih => exact ih

theorem Runs.counted (h : Runs cfg n rs) : rs.Counted := by
  induction h with
  | configure => exact counted_configure cfg
  | enqueue h t d hlen prio life now ih => exact ih.enqueue t d prio life now
  | acknowledge h id now ih => exact ih.acknowledge id now
  | noteSent h id now ih => exact ih.noteSent id now
  | resendDue h now fn s ih => exact ih.resendDue now fn s
  | expireOld h now ih => exact ih.expireOld now
  | acceptIncoming h id ih =>
    exact ⟨ih.pendingBytes, ih.inflightCount, ih.maxInflight, ih.maxPending⟩
  | clear h ih => exact counted_clear _

theorem nextMessageId_enqueue (t : UInt8) (d : Bytes) (prio : SendPriority) (life now : UInt64)
    (rs : ReliableSession) (hnext : rs.nextMessageId.toNat + 1 < 2 ^ 64) :
    (rs.enqueue t d prio life now).2.nextMessageId.toNat ≤ rs.nextMessageId.toNat + 1 := by
  have hsucc : (rs.nextMessageId + 1).toNat = rs.nextMessageId.toNat + 1 := by
    rw [UInt64.toNat_add]
    exact Nat.mod_eq_of_lt hnext
  rcases rs.enqueue_eq t d prio life now with ⟨msg, he, -⟩ | ⟨msg, he, -⟩ | ⟨he, -⟩
  · rw [he]
    exact Nat.le_succ _
  all_goals
    rw [he]
    exact hsucc.le

theorem SameNumbers.toNat_le {a b : ReliableSession} (h : SameNumbers a b)
    (hle : a.nextMessageId.toNat ≤ n + 1) : b.nextMessageId.toNat ≤ n + 1 := by
  rw [h.nextMessageId]
  exact hle

/-- Until the ids are used up the queue is in order. -/
theorem Runs.ordered (h : Runs cfg n rs) (hn : n + 1 < 2 ^ 64) :
    rs.Ordered ∧ rs.nextMessageId.toNat ≤ n + 1 := by
  induction h with
  | configure => exact ⟨ordered_of_nil rfl, le_rfl⟩
  | enqueue h t d hlen prio life now ih =>
    obtain ⟨ho, hle⟩ := ih (by omega)
    rename_i k rs
    have hroom : rs.nextMessageId.toNat + 1 < 2 ^ 64 := by omega
    have hnext := nextMessageId_enqueue t d prio life now rs hroom
    exact ⟨ho.enqueue hroom t d prio life now, by omega⟩
  | acknowledge h id now ih =>
    obtain ⟨ho, hle⟩ := ih hn
    exact ⟨ho.acknowledge id now, (sameNumbers_acknowledge id now _).toNat_le hle⟩
  | noteSent h id now ih =>
    obtain ⟨ho, hle⟩ := ih hn
    exact ⟨ho.noteSent id now, (sameNumbers_noteSent id now _).toNat_le hle⟩
  | resendDue h now fn s ih =>
    obtain ⟨ho, hle⟩ := ih hn
    exact ⟨ho.resendDue h.counted now fn s, (sameNumbers_resendDue now fn _ s).toNat_le hle⟩
  | expireOld h now ih =>
    obtain ⟨ho, hle⟩ := ih hn
    exact ⟨ho.expireOld now, (sameNumbers_expireOld now _).toNat_le hle⟩
  | acceptIncoming h id ih =>
    obtain ⟨ho, hle⟩ := ih hn
    exact ⟨ho.sublist (List.Sublist.refl _) rfl, hle⟩
  | clear h ih => exact ⟨ordered_of_nil rfl, Nat.le_add_left _ _⟩

/-- In every state reached with fewer than 2^64 - 1 calls of `enqueue` the counters are those of
the queue, the limits hold, and the queue is in order with ids from 1 up to the last one given
out. -/
theorem representation_invariant (h : Runs cfg n rs) (hn : n < 2 ^ 64 - 1) :
    rs.Counted ∧ rs.Ordered ∧ rs.cfg = cfg :=
  ⟨h.counted, (h.ordered (by omega)).1, h.cfg_eq⟩

/-- Two messages, of which the second is more urgent and the first in flight. -/
def overtaken (cfg : ReliabilityConfig) : ReliableSession :=
  ((((configure cfg {}).enqueue 7 [1] .low 0 1).2.noteSent 1 1).2.enqueue 7 [2] .high 0 2).2

theorem overtaken_runs (cfg : ReliabilityConfig) : Runs cfg 2 (overtaken cfg) :=
  .enqueue (.noteSent (.enqueue .configure 7 [1] (by decide) .low 0 1) 1 1) 7 [2] (by decide)
    .high 0 2

theorem representation_invariant_overtaken :
    (overtaken {}).pending.map (fun m => (m.messageId, m.inflight)) = [(2, false), (1, true)] ∧
      (overtaken {}).inflightCount = 1 ∧ (overtaken {}).Counted ∧ (overtaken {}).Ordered := by
  have h := representation_invariant (overtaken_runs {}) (by decide)
  exact ⟨by decide, by decide, h.1, h.2.1⟩

theorem enqueue_too_long {d : Bytes} (hlen : NetConfig.maxReliableMessageBytes < d.length)
    (hroom : rs.pending.length < rs.cfg.maxPendingMessages.toNat)
    (hbytes : rs.pendingBytes + UInt32.ofNat (8 + d.length) ≤ rs.cfg.maxPendingBytes) (t : UInt8)
    (prio : SendPriority) (life now : UInt64) :
    (rs.enqueue t d prio life now).2 = { rs with nextMessageId := rs.nextMessageId + 1 } := by
  rcases rs.enqueue_eq t d prio life now with
    ⟨-, -, hfull | hover⟩ | ⟨msg, he, -⟩ | ⟨-, -, hfits, -⟩
  · exact absurd hroom (not_lt.mpr hfull)
  · exact absurd hbytes (UInt32.not_le.mpr hover)
  · rw [he]
  · exact absurd hlen (not_lt.mpr hfits)

/-- The session after `k` calls that cost an id each. -/
def burnt (k : ℕ) : ReliableSession :=
  { configure {} {} with nextMessageId := UInt64.ofNat (k + 1) }

theorem burnt_runs (k : ℕ) : Runs {} k (burnt k) := by
  induction k with
  | zero => exact .configure
  | succ k ih =>
    obtain ⟨d, hd⟩ : ∃ d : Bytes, d.length = 1300 := ⟨List.replicate 1300 0, List.length_replicate⟩
    have hlong : NetConfig.maxReliableMessageBytes < d.length := by rw [hd]; decide
    have hroom : (burnt k).pending.length < (burnt k).cfg.maxPendingMessages.toNat :=
      show 0 < 256 by decide
    have hbytes : (burnt k).pendingBytes + UInt32.ofNat (8 + d.length) ≤
        (burnt k).cfg.maxPendingBytes := by
      rw [hd]
      exact show (0 : UInt32) + UInt32.ofNat 1308 ≤ 64 * 1024 by decide
    have hnext := ih.enqueue 7 d (by omega) .normal 0 0
    rw [enqueue_too_long hlong hroom hbytes] at hnext
    have hstep : { burnt k with nextMessageId := (burnt k).nextMessageId + 1 } = burnt (k + 1) := by
      simp [burnt]
    rw [hstep] at hnext
    exact hnext

/-- One call later the counter of the ids is back at 0, with the last one still pending. -/
theorem ids_used_up :
    validateReliabilityConfig {} = .ok () ∧
      ∃ rs, Runs {} (2 ^ 64 - 1) rs ∧ ∃ m ∈ rs.pending, ¬m.messageId < rs.nextMessageId := by
  refine ⟨rfl, _, (burnt_runs (2 ^ 64 - 2)).enqueue 7 [] (by simp) .normal 0 0, ?_⟩
  exact ⟨_, List.mem_singleton_self _, by decide⟩

/-! ### What a pass retransmits -/

/-- A callback that also lists the ids it is given. -/
def recording (m : PendingReliableMessage) (s : σ × List UInt64) : Result Unit × σ × List UInt64 :=
  let (rc, t) := fn m s.1
  (rc, t, s.2 ++ [m.messageId])

/-- The loop of the pass once more: for every message of the queue, whether `fn` is called on it. -/
def handed : List PendingReliableMessage → ReliableSession → σ → List Bool
  | [], _, _ => []
  | m :: ms, rs, s =>
    if m.expired now || m.waiting now then false :: handed ms rs s
    else if (timedOut m rs).2.cfg.maxInflightMessages ≤ (timedOut m rs).2.inflightCount then
      List.replicate (ms.length + 1) false
    else
      match fn (timedOut m rs).1 s with
      | (.error _, _) => true :: List.replicate ms.length false
      | (.ok (), s) => true :: handed ms (timedOut m rs).2.countSent s

/-- The ids of the messages a list of flags marks. -/
def marked (ms : List PendingReliableMessage) (flags : List Bool) : List UInt64 :=
  ((ms.zip flags).filter fun mf => mf.2).map fun mf => mf.1.messageId

theorem marked_replicate (ms : List PendingReliableMessage) (k : ℕ) :
    marked ms (List.replicate k false) = [] := by
  unfold marked
  rw [List.map_eq_nil_iff, List.filter_eq_nil_iff]
  rintro ⟨m, b⟩ hmem
  have hb := List.eq_of_mem_replicate (List.of_mem_zip hmem).2
  simp [hb]

theorem timedOut_messageId (m : PendingReliableMessage) (rs : ReliableSession) :
    (timedOut m rs).1.messageId = m.messageId := congrArg Prod.fst (timedOut_place m rs)

/-- The flags describe the calls of the callback. -/
theorem resendLoop_recording (ms : List PendingReliableMessage) (rs : ReliableSession) (s : σ)
    (ids : List UInt64) :
    (resendLoop now (recording fn) ms rs (s, ids)).2.2.2.2 =
      ids ++ marked ms (handed now fn ms rs s) := by
  induction ms generalizing rs s ids with
  | nil => simp [resendLoop, handed, marked]
  | cons m ms ih =>
    rw [resendLoop_cons]
    unfold handed
    by_cases hskip : (m.expired now || m.waiting now) = true
    · rw [if_pos hskip, if_pos hskip]
      exact ih rs s ids
    rw [if_neg hskip, if_neg hskip]
    split_ifs with hfull
    · rw [marked_replicate, List.append_nil]
    · unfold recording
      cases hf : fn (timedOut m rs).1 s with
      | mk rc s' =>
        cases rc with
        | error e =>
          have hnone := marked_replicate ms ms.length
          unfold marked at hnone ⊢
          simp [hnone, timedOut_messageId]
        | ok u =>
          have hrest := ih (timedOut m rs).2.countSent s' (ids ++ [(timedOut m rs).1.messageId])
          refine hrest.trans ?_
          rw [timedOut_messageId, List.append_assoc]
          rfl

theorem waiting_of_overdue {m : PendingReliableMessage} (h : m.Overdue now) :
    m.waiting now = decide (m.lastSendMs = 0) := by
  obtain ⟨hfly, -, hrto⟩ := h
  have hnot : ¬now - m.lastSendMs < m.rtoMs := UInt64.not_lt.mpr hrto
  simp [PendingReliableMessage.waiting, hfly, hnot]

theorem not_ready_of_skipped {m : PendingReliableMessage}
    (h : (m.expired now || m.waiting now) = true) : m.ready now = false := by
  unfold PendingReliableMessage.ready
  rcases Bool.or_eq_true_iff.mp h with hexp | hwait
  · simp [hexp]
  · unfold PendingReliableMessage.waiting at hwait
    rw [Bool.and_eq_true] at hwait
    simp [hwait.1]

variable {now fn}

theorem handed_skipped (h : (x.expired now || x.waiting now) = true)
    (ms : List PendingReliableMessage) (rs : ReliableSession) (s : σ) :
    handed now fn (x :: ms) rs s = false :: handed now fn ms rs s := if_pos h

theorem handed_full (h : ¬(x.expired now || x.waiting now) = true)
    (hfull : (timedOut x rs).2.cfg.maxInflightMessages ≤ (timedOut x rs).2.inflightCount)
    (ms : List PendingReliableMessage) (s : σ) :
    handed now fn (x :: ms) rs s = List.replicate (ms.length + 1) false := by
  unfold handed
  rw [if_neg h, if_pos hfull]

theorem handed_sent (hfn : ∀ m s, (fn m s).1 = .ok ())
    (h : ¬(x.expired now || x.waiting now) = true)
    (hroom : (timedOut x rs).2.inflightCount < (timedOut x rs).2.cfg.maxInflightMessages)
    (ms : List PendingReliableMessage) (s : σ) :
    handed now fn (x :: ms) rs s =
      true :: handed now fn ms (timedOut x rs).2.countSent (fn (timedOut x rs).1 s).2 := by
  have hok := hfn (timedOut x rs).1 s
  conv_lhs => unfold handed
  rw [if_neg h, if_neg (UInt32.not_le.mpr hroom)]
  cases hf : fn (timedOut x rs).1 s with
  | mk rc s' =>
    rw [hf] at hok
    subst hok
    rfl

/-- With a callback that succeeds an overdue message is handed over exactly when its transmission
has a time and the messages before it that are ready fit below the limit. -/
theorem handed_iff (hfn : ∀ m s, (fn m s).1 = .ok ()) {ms : List PendingReliableMessage} {i : ℕ}
    (rs : ReliableSession) {m : PendingReliableMessage} (s : σ)
    (hcount : rs.inflightCount.toNat = k + flying ms)
    (hmax : rs.inflightCount ≤ rs.cfg.maxInflightMessages) (hi : ms[i]? = some m)
    (hdue : m.Overdue now) :
    (handed now fn ms rs s)[i]? = some true ↔ m.lastSendMs ≠ 0 ∧
      rs.inflightCount.toNat + (ms.take i).countP (fun x => x.ready now) ≤
        rs.cfg.maxInflightMessages.toNat := by
  induction ms generalizing k i rs s with
  | nil => simp at hi
  | cons x ms ih =>
    rw [flying_cons] at hcount
    have hle := UInt32.le_iff_toNat_le.mp hmax
    by_cases hskip : (x.expired now || x.waiting now) = true
    · rw [handed_skipped hskip]
      cases i with
      | zero =>
        obtain rfl := Option.some.inj hi
        rw [hdue.2.1, Bool.false_or, waiting_of_overdue now hdue, decide_eq_true_eq] at hskip
        simp [hskip]
      | succ i =>
        rw [List.getElem?_cons_succ, List.take_succ_cons, List.countP_cons_of_neg (by
          simp [not_ready_of_skipped now hskip])]
        exact ih (k := k + x.inflight.toNat) rs s (by omega) hmax hi
    have hcfg := timedOut_cfg x rs
    have hout : (timedOut x rs).2.inflightCount.toNat = k + flying ms := by
      rw [timedOut_inflightCount]
      omega
    -- The rest of the pass, once the message at hand was sent.
    have hrest : ∀ j, ms[j]? = some m → k + flying ms < rs.cfg.maxInflightMessages.toNat →
        ((handed now fn (x :: ms) rs s)[j + 1]? = some true ↔ m.lastSendMs ≠ 0 ∧
          k + flying ms + 1 + (ms.take j).countP (fun x => x.ready now) ≤
            rs.cfg.maxInflightMessages.toNat) := by
      intro j hj hlt
      have hroom : (timedOut x rs).2.inflightCount < (timedOut x rs).2.cfg.maxInflightMessages := by
        rw [UInt32.lt_iff_toNat_lt, hcfg, hout]
        exact hlt
      have hsent : (timedOut x rs).2.countSent.inflightCount.toNat = k + flying ms + 1 := by
        rw [countSent, toNat_succ_of_lt hroom, hout]
      have hih := ih (k := k + 1) (timedOut x rs).2.countSent (fn (timedOut x rs).1 s).2 (by omega)
        (succ_le_of_lt hroom) hj
      rw [hsent, show (timedOut x rs).2.countSent.cfg = rs.cfg from hcfg] at hih
      rw [handed_sent hfn hskip hroom, List.getElem?_cons_succ]
      exact hih
    by_cases hfly : x.inflight = true
    · -- A message that leaves the flight makes room for itself.
      rw [hfly, Bool.toNat_true] at hcount
      cases i with
      | zero =>
        obtain rfl := Option.some.inj hi
        rw [hdue.2.1, Bool.false_or, waiting_of_overdue now hdue, decide_eq_true_eq] at hskip
        have hroom : (timedOut x rs).2.inflightCount <
            (timedOut x rs).2.cfg.maxInflightMessages := by
          rw [UInt32.lt_iff_toNat_lt, hcfg, hout]
          omega
        rw [handed_sent hfn (by simp [hdue.2.1, waiting_of_overdue now hdue, hskip]) hroom]
        simp [hskip, hle]
      | succ i =>
        rw [hrest i hi (by omega), List.take_succ_cons, List.countP_cons_of_neg (by
          simp [PendingReliableMessage.ready, hfly])]
        refine and_congr_right fun _ => ?_
        omega
    · -- A message that was ready takes up room, if there is any.
      rw [Bool.not_eq_true] at hfly
      rw [hfly, Bool.toNat_false] at hcount
      have hexp : x.expired now = false := by
        rw [Bool.not_eq_true, Bool.or_eq_false_iff] at hskip
        exact hskip.1
      cases i with
      | zero =>
        obtain rfl := Option.some.inj hi
        rw [hdue.1] at hfly
        cases hfly
      | succ i =>
        rw [List.take_succ_cons, List.countP_cons_of_pos (by
          simp [PendingReliableMessage.ready, hfly, hexp])]
        by_cases hlt : k + flying ms < rs.cfg.maxInflightMessages.toNat
        · rw [hrest i hi hlt]
          refine and_congr_right fun _ => ?_
          omega
        · have hfull : (timedOut x rs).2.cfg.maxInflightMessages ≤
              (timedOut x rs).2.inflightCount := by
            rw [UInt32.le_iff_toNat_le, hcfg, hout]
            omega
          rw [handed_full hskip hfull, List.getElem?_replicate]
          constructor
          · intro h
            split_ifs at h
            cases h
          · rintro ⟨-, h⟩
            omega

/-- In every state of a run the pass hands exactly the messages `handed` marks to a callback that
succeeds, and all overdue messages are among them exactly when each of them was sent at a time
other than 0 and the ready messages before it in the queue fit below the limit. -/
theorem overdue_handed_iff (h : Runs cfg n rs) (hfn : ∀ m s, (fn m s).1 = .ok ()) (s : σ) :
    (rs.resendDue now (recording fn) (s, [])).2.2.2 =
        marked rs.pending (handed now fn rs.pending rs s) ∧
      ((∀ (i : ℕ) (m : PendingReliableMessage), rs.pending[i]? = some m → m.Overdue now →
          (handed now fn rs.pending rs s)[i]? = some true) ↔
        ∀ (i : ℕ) (m : PendingReliableMessage), rs.pending[i]? = some m → m.Overdue now → m.lastSendMs ≠ 0 ∧
          rs.inflightCount.toNat + (rs.pending.take i).countP (fun x => x.ready now) ≤
            cfg.maxInflightMessages.toNat) := by
  have hc := h.counted
  refine ⟨?_, ?_⟩
  · rw [(resendDue_fields now (recording fn) rs (s, [])).2.2.2, resendLoop_recording]
    rfl
  · refine forall_congr' fun i => forall_congr' fun m => forall_congr' fun hi =>
      forall_congr' fun hdue => ?_
    have hcount : rs.inflightCount.toNat = 0 + flying rs.pending := by
      rw [Nat.zero_add]
      exact hc.inflightCount
    rw [handed_iff hfn rs s hcount hc.maxInflight hi hdue, h.cfg_eq]

def sending (_ : PendingReliableMessage) (s : Unit) : Result Unit × Unit := (.ok (), s)

/-- With room for two in flight the first message is sent again. -/
theorem overdue_handed_iff_room :
    ((overtaken {}).resendDue 1000 (recording sending) ((), [])).2.2.2 = [2, 1] ∧
      ∀ (i : ℕ) (m : PendingReliableMessage), (overtaken {}).pending[i]? = some m → m.Overdue 1000 →
        (handed 1000 sending (overtaken {}).pending (overtaken {}) ())[i]? = some true := by
  refine ⟨by decide, (overdue_handed_iff (overtaken_runs {}) (fun _ _ => rfl) ()).2.mpr ?_⟩
  intro i m hi hdue
  match i with
  | 0 =>
    obtain rfl := Option.some.inj hi
    exact absurd hdue (by decide)
  | 1 =>
    obtain rfl := Option.some.inj hi
    decide
  | i + 2 => cases hi

/-- With room for one the more urgent message stops the pass before the overdue one. -/
theorem overdue_not_handed :
    validateReliabilityConfig { maxInflightMessages := 1 } = .ok () ∧
      Runs { maxInflightMessages := 1 } 2 (overtaken { maxInflightMessages := 1 }) ∧
      ((overtaken { maxInflightMessages := 1 }).pending.filter fun m => m.Overdue 1000).map
        (fun m => m.messageId) = [1] ∧
      ((overtaken { maxInflightMessages := 1 }).resendDue 1000 (recording sending) ((), [])).2.2.2 =
        [] :=
  ⟨rfl, overtaken_runs _, by decide, by decide⟩

end ReliableSession

end SecureCnet
