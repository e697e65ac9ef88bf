import Mathlib.Data.List.Sort
import SecureCnet.Delivery.Windows
import SecureCnet.Wire.Message

/-!
# Reliable sessions

The sender's queue of unacknowledged messages with its timers, and the window of
received ids. Numbers have the widths of the source and wrap as there. The lemmas
say once what each operation does to the queue: an operation other than `enqueue`
keeps the id, type and encoding of every message that stays.
-/

namespace SecureCnet

structure PendingReliableMessage where
  messageId : UInt64
  userType : UInt8
  encodedPayload : Bytes
  priority : SendPriority
  lifetimeMs : UInt64
  enqueuedMs : UInt64
  firstSendMs : UInt64 := 0
  lastSendMs : UInt64 := 0
  rtoMs : UInt64
  sendCount : UInt32 := 0
  inflight : Bool := false
  deriving DecidableEq, Repr

structure ReliableAckEvent where
  removed : Bool := false
  rttSampleValid : Bool := false
  rttSampleMs : UInt64 := 0
  retransmitted : Bool := false
  deriving DecidableEq, Repr

structure ReliableSession where
  cfg : ReliabilityConfig := {}
  nextMessageId : UInt64 := 1
  pending : List PendingReliableMessage := []
  pendingBytes : UInt32 := 0
  inflightCount : UInt32 := 0
  received : ReliableReceiveWindow := {}
  haveRtt : Bool := false
  latestRttMs : UInt64 := 0
  srttMs : UInt64 := 0
  rttvarMs : UInt64 := 0
  rtoMs : UInt64 := 120
  lossEvents : UInt64 := 0
  retransmitEvents : UInt64 := 0
  lossPerMille : UInt64 := 0
  deriving DecidableEq, Repr

/-- `std::clamp` on 64-bit numbers. -/
def clampU64 (v lo hi : UInt64) : UInt64 := if v < lo then lo else if hi < v then hi else v

namespace PendingReliableMessage

/-- The lifetime has run out. -/
def expired (nowMs : UInt64) (m : PendingReliableMessage) : Bool :=
  0 < m.lifetimeMs && m.enqueuedMs + m.lifetimeMs ≤ nowMs

/-- In flight with its retransmission timer still running. -/
def waiting (nowMs : UInt64) (m : PendingReliableMessage) : Bool :=
  m.inflight && (m.lastSendMs = 0 || nowMs - m.lastSendMs < m.rtoMs)

/-- Book-keeping of one transmission. -/
def markSent (nowMs : UInt64) (m : PendingReliableMessage) : PendingReliableMessage :=
  { m with
    inflight := true
    firstSendMs := if m.firstSendMs = 0 then nowMs else m.firstSendMs
    lastSendMs := nowMs
    sendCount := m.sendCount + 1 }

/-- What travels: the id, the type and the encoded bytes. -/
def content (m : PendingReliableMessage) : UInt64 × UInt8 × Bytes :=
  (m.messageId, m.userType, m.encodedPayload)

@[simp] theorem content_markSent (nowMs : UInt64) (m : PendingReliableMessage) :
    (m.markSent nowMs).content = m.content := rfl

end PendingReliableMessage

namespace ReliableSession

def resetRtt (rs : ReliableSession) : ReliableSession :=
  { rs with
    haveRtt := false, latestRttMs := 0, srttMs := 0, rttvarMs := 0
    rtoMs := rs.cfg.initialRtoMs }

def configure (cfg : ReliabilityConfig) (rs : ReliableSession) : ReliableSession :=
  { rs with cfg }.resetRtt

def clear (rs : ReliableSession) : ReliableSession :=
  { rs.resetRtt with
    nextMessageId := 1, pending := [], pendingBytes := 0, inflightCount := 0, received := {}
    lossEvents := 0, retransmitEvents := 0, lossPerMille := 0 }

def updateRtt (sampleMs : UInt64) (rs : ReliableSession) : ReliableSession :=
  let (srtt, rttvar) :=
    if !rs.haveRtt then (sampleMs, max 1 (sampleMs / 2))
    else
      let absDelta := if sampleMs < rs.srttMs then rs.srttMs - sampleMs else sampleMs - rs.srttMs
      ((rs.srttMs * 7 + sampleMs) / 8, (rs.rttvarMs * 3 + absDelta) / 4)
  let penalty := max 1 (rttvar * 4)
  { rs with
    haveRtt := true, latestRttMs := sampleMs, srttMs := srtt, rttvarMs := rttvar
    rtoMs := clampU64 (srtt + penalty) rs.cfg.minRtoMs rs.cfg.maxRtoMs }

def updateLossEstimate (rs : ReliableSession) : ReliableSession :=
  let denom := max 1 (rs.lossEvents + (rs.nextMessageId - 1))
  { rs with lossPerMille := min 1000 (rs.lossEvents * 1000 / denom) }

/-- Insert before the first message of lower priority. -/
def insertPending (m : PendingReliableMessage) (ms : List PendingReliableMessage) :
    List PendingReliableMessage :=
  ms.orderedInsert (fun a b => b.priority.rank < a.priority.rank) m

/-- The counters after one message has left the queue. -/
def forget (m : PendingReliableMessage) (rs : ReliableSession) : ReliableSession :=
  { rs with
    inflightCount :=
      if m.inflight && 0 < rs.inflightCount then rs.inflightCount - 1 else rs.inflightCount
    pendingBytes := rs.pendingBytes - UInt32.ofNat m.encodedPayload.length }

def enqueue (userType : UInt8) (data : Bytes) (priority : SendPriority)
    (lifetimeMs nowMs : UInt64) (rs : ReliableSession) :
    Result PendingReliableMessage × ReliableSession :=
  if rs.cfg.maxPendingMessages.toNat ≤ rs.pending.length then
    (fail .queueFull "reliable queue full", rs)
  else
    let newBytes := UInt32.ofNat (8 + data.length)
    if rs.cfg.maxPendingBytes < rs.pendingBytes + newBytes then
      (fail .queueFull "reliable byte budget exhausted", rs)
    else
      let id := rs.nextMessageId
      let rs := { rs with nextMessageId := id + 1 }
      match writeReliablePayload ⟨8 + data.length, []⟩ id data with
      | .error e => (.error e, rs)
      | .ok w =>
        let m : PendingReliableMessage :=
          { messageId := id, userType, encodedPayload := w.out, priority, lifetimeMs
            enqueuedMs := nowMs, rtoMs := rs.rtoMs }
        (.ok m, { rs with
          pending := insertPending m rs.pending, pendingBytes := rs.pendingBytes + newBytes })

def acknowledge (messageId nowMs : UInt64) (rs : ReliableSession) :
    ReliableAckEvent × ReliableSession :=
  match rs.pending.find? fun m => m.messageId = messageId with
  | none => ({}, rs)
  | some m =>
    let sampled := m.sendCount = 1 ∧ m.firstSendMs ≠ 0 ∧ m.firstSendMs ≤ nowMs
    let sample := nowMs - m.firstSendMs
    let rs' := rs.forget m
    let rs' := if sampled then rs'.updateRtt sample else rs'
    ({ removed := true, retransmitted := 1 < m.sendCount
       rttSampleValid := sampled, rttSampleMs := if sampled then sample else 0 },
      { rs' with pending := rs.pending.eraseP fun m => m.messageId = messageId })

/-- One pass over the queue; `fn` sends a message and may fail. -/
def resendLoop {σ : Type} (nowMs : UInt64)
    (fn : PendingReliableMessage → σ → Result Unit × σ) :
    List PendingReliableMessage → ReliableSession → σ →
      Result Unit × List PendingReliableMessage × ReliableSession × σ
  | [], rs, s => (.ok (), [], rs, s)
  | m :: ms, rs, s =>
    if m.expired nowMs || m.waiting nowMs then
      let (rc, ms, rs, s) := resendLoop nowMs fn ms rs s
      (rc, m :: ms, rs, s)
    else
      -- An in-flight message whose timer ran out counts as lost and is sent again.
      let (m, rs) :=
        if m.inflight then
          ({ m with
              inflight := false
              rtoMs := min rs.cfg.maxRtoMs (max rs.cfg.minRtoMs (m.rtoMs * 2)) },
            { rs with
              lossEvents := rs.lossEvents + 1, retransmitEvents := rs.retransmitEvents + 1
              inflightCount :=
                if 0 < rs.inflightCount then rs.inflightCount - 1 else rs.inflightCount })
        else (m, rs)
      if rs.cfg.maxInflightMessages ≤ rs.inflightCount then (.ok (), m :: ms, rs, s)
      else
        match fn m s with
        | (.error e, s) => (.error e, m :: ms, rs, s)
        | (.ok (), s) =>
          let (rc, ms, rs, s) :=
            resendLoop nowMs fn ms { rs with inflightCount := rs.inflightCount + 1 } s
          (rc, m.markSent nowMs :: ms, rs, s)

def resendDue {σ : Type} (nowMs : UInt64)
    (fn : PendingReliableMessage → σ → Result Unit × σ) (rs : ReliableSession) (s : σ) :
    Result Unit × ReliableSession × σ :=
  let (rc, pending, rs, s) := resendLoop nowMs fn rs.pending rs s
  let rs := { rs with pending }
  match rc with
  | .error e => (.error e, rs, s)
  | .ok () => (.ok (), rs.updateLossEstimate, s)

def expireOld (nowMs : UInt64) (rs : ReliableSession) : UInt32 × ReliableSession :=
  let gone := rs.pending.filter fun m => m.expired nowMs
  let kept := rs.pending.filter fun m => !m.expired nowMs
  (UInt32.ofNat gone.length, { gone.foldl (fun rs m => rs.forget m) rs with pending := kept })

def noteSent (messageId nowMs : UInt64) (rs : ReliableSession) : Bool × ReliableSession :=
  match rs.pending.find? fun m => m.messageId = messageId with
  | none => (false, rs)
  | some m =>
    if !m.inflight && rs.cfg.maxInflightMessages ≤ rs.inflightCount then (false, rs)
    else
      (true, { rs with
        inflightCount := if m.inflight then rs.inflightCount else rs.inflightCount + 1
        pending := rs.pending.replaceF fun m =>
          if m.messageId = messageId then some (m.markSent nowMs) else none })

def acceptIncoming (messageId : UInt64) (rs : ReliableSession) : Bool × ReliableSession :=
  let (fresh, received) := rs.received.accept messageId
  (fresh, { rs with received })

/-- The ids, types and encodings waiting in the queue. -/
def contents (rs : ReliableSession) : List (UInt64 × UInt8 × Bytes) :=
  rs.pending.map PendingReliableMessage.content

/-- Two sessions that agree on everything but the queue and its timers. -/
structure SameNumbers (rs rs' : ReliableSession) : Prop where
  cfg : rs'.cfg = rs.cfg
  nextMessageId : rs'.nextMessageId = rs.nextMessageId
  received : rs'.received = rs.received

theorem SameNumbers.refl (rs : ReliableSession) : SameNumbers rs rs := ⟨rfl, rfl, rfl⟩

theorem SameNumbers.trans {a b c : ReliableSession} (h : SameNumbers a b) (h' : SameNumbers b c) :
    SameNumbers a c :=
  ⟨h'.cfg.trans h.cfg, h'.nextMessageId.trans h.nextMessageId, h'.received.trans h.received⟩

variable {rs : ReliableSession}

theorem mem_insertPending {m x : PendingReliableMessage} {ms : List PendingReliableMessage} :
    x ∈ insertPending m ms ↔ x = m ∨ x ∈ ms := by
  unfold insertPending
  exact List.mem_orderedInsert _

theorem eraseP_insertPending {m : PendingReliableMessage} {ms : List PendingReliableMessage}
    (h : ∀ x ∈ ms, x.messageId ≠ m.messageId) :
    (insertPending m ms).eraseP (fun x => x.messageId = m.messageId) = ms := by
  unfold insertPending
  rw [List.orderedInsert_eq_take_drop, List.eraseP_append_right]
  · rw [List.eraseP_cons_of_pos (by simp)]
    exact List.takeWhile_append_dropWhile
  · intro x hx
    simpa using h x (List.takeWhile_subset _ hx)

/-- The message a call of `enqueue` queues if it succeeds. -/
def queued (t : UInt8) (d : Bytes) (prio : SendPriority) (life now : UInt64)
    (rs : ReliableSession) : PendingReliableMessage :=
  { messageId := rs.nextMessageId, userType := t, encodedPayload := be64 rs.nextMessageId ++ d
    priority := prio, lifetimeMs := life, enqueuedMs := now, rtoMs := rs.rtoMs }

/-- What `enqueue` does: refuse for lack of room, burn a number, or queue the message. -/
theorem enqueue_eq (t : UInt8) (d : Bytes) (prio : SendPriority) (life now : UInt64)
    (rs : ReliableSession) :
    (∃ msg, rs.enqueue t d prio life now = (fail .queueFull msg, rs) ∧
      (rs.cfg.maxPendingMessages.toNat ≤ rs.pending.length ∨
        rs.cfg.maxPendingBytes < rs.pendingBytes + UInt32.ofNat (8 + d.length))) ∨
    (∃ msg, rs.enqueue t d prio life now =
        (fail .invalidArg msg, { rs with nextMessageId := rs.nextMessageId + 1 }) ∧
      (rs.nextMessageId = 0 ∨ NetConfig.maxReliableMessageBytes < d.length)) ∨
    (rs.enqueue t d prio life now = (.ok (rs.queued t d prio life now), { rs with
        nextMessageId := rs.nextMessageId + 1
        pending := insertPending (rs.queued t d prio life now) rs.pending
        pendingBytes := rs.pendingBytes + UInt32.ofNat (8 + d.length) }) ∧
      rs.nextMessageId ≠ 0 ∧ d.length ≤ NetConfig.maxReliableMessageBytes ∧
      rs.pending.length < rs.cfg.maxPendingMessages.toNat ∧
      rs.pendingBytes + UInt32.ofNat (8 + d.length) ≤ rs.cfg.maxPendingBytes) := by
  unfold enqueue
  by_cases hfull : rs.cfg.maxPendingMessages.toNat ≤ rs.pending.length
  · exact Or.inl ⟨_, if_pos hfull, Or.inl hfull⟩
  by_cases hbytes : rs.cfg.maxPendingBytes < rs.pendingBytes + UInt32.ofNat (8 + d.length)
  · refine Or.inl ⟨"reliable byte budget exhausted", ?_, Or.inr hbytes⟩
    simp only [hfull, hbytes, if_true, if_false]
  right
  simp only [hfull, hbytes, if_false]
  by_cases hid : rs.nextMessageId = 0
  · left
    refine ⟨"reliable message id must be non-zero", ?_, Or.inl hid⟩
    simp [writeReliablePayload, writeEnvelope, hid, fail]
  by_cases hlen : NetConfig.maxReliableMessageBytes < d.length
  · left
    refine ⟨"reliable message too large", ?_, Or.inr hlen⟩
    simp only [writeReliablePayload, writeEnvelope, hid, hlen, if_true, if_false, fail]
  · right
    have hw : writeReliablePayload ⟨8 + d.length, []⟩ rs.nextMessageId d =
        .ok ⟨8 + d.length, be64 rs.nextMessageId ++ d⟩ := by
      rw [writeReliablePayload, writeEnvelope_eq, if_neg hid, if_neg hlen,
        ByteWriter.writeBytes_fresh, if_pos (by simp)]
    simp only [hw]
    exact ⟨rfl, hid, not_lt.mp hlen, Nat.lt_of_not_le hfull, UInt32.not_lt.mp hbytes⟩

/-- A message that fits is queued. -/
theorem enqueue_of_room {t : UInt8} {d : Bytes} {rs : ReliableSession}
    (hlen : d.length ≤ NetConfig.maxReliableMessageBytes)
    (hroom : rs.pending.length < rs.cfg.maxPendingMessages.toNat)
    (hbytes : rs.pendingBytes + UInt32.ofNat (8 + d.length) ≤ rs.cfg.maxPendingBytes)
    (hid : rs.nextMessageId ≠ 0) (prio : SendPriority) (life now : UInt64) :
    rs.enqueue t d prio life now = (.ok (rs.queued t d prio life now), { rs with
        nextMessageId := rs.nextMessageId + 1
        pending := insertPending (rs.queued t d prio life now) rs.pending
        pendingBytes := rs.pendingBytes + UInt32.ofNat (8 + d.length) }) := by
  rcases rs.enqueue_eq t d prio life now with
    ⟨-, -, hfull | hover⟩ | ⟨-, -, hzero | hlong⟩ | ⟨he, -⟩
  · exact absurd hroom (not_lt.mpr hfull)
  · exact absurd hbytes (UInt32.not_le.mpr hover)
  · exact absurd hzero hid
  · exact absurd hlen (not_le.mpr hlong)
  · exact he

theorem enqueue_cases (t : UInt8) (d : Bytes) (prio : SendPriority) (life now : UInt64)
    (rs : ReliableSession) :
    (∃ msg, rs.enqueue t d prio life now = (fail .queueFull msg, rs)) ∨
    (∃ msg, rs.enqueue t d prio life now =
        (fail .invalidArg msg, { rs with nextMessageId := rs.nextMessageId + 1 }) ∧
      (rs.nextMessageId = 0 ∨ NetConfig.maxReliableMessageBytes < d.length)) ∨
    (∃ m rs', rs.enqueue t d prio life now = (.ok m, rs') ∧ rs.nextMessageId ≠ 0 ∧
      d.length ≤ NetConfig.maxReliableMessageBytes ∧
      m.content = (rs.nextMessageId, t, be64 rs.nextMessageId ++ d) ∧
      m.lifetimeMs = life ∧ m.priority = prio ∧
      rs'.pending = insertPending m rs.pending ∧ rs'.cfg = rs.cfg ∧
      rs'.nextMessageId = rs.nextMessageId + 1 ∧ rs'.received = rs.received) := by
  rcases rs.enqueue_eq t d prio life now with
    ⟨msg, he, -⟩ | hburnt | ⟨hok, hid, hlen, -⟩
  · exact Or.inl ⟨msg, he⟩
  · exact Or.inr (Or.inl hburnt)
  · exact Or.inr (Or.inr ⟨_, _, hok, hid, hlen, rfl, rfl, rfl, rfl, rfl, rfl, rfl⟩)

@[simp] theorem forget_pending (m : PendingReliableMessage) (rs : ReliableSession) :
    (rs.forget m).pending = rs.pending := rfl

theorem sameNumbers_forget (m : PendingReliableMessage) (rs : ReliableSession) :
    SameNumbers rs (rs.forget m) := ⟨rfl, rfl, rfl⟩

theorem sameNumbers_updateRtt (sample : UInt64) (rs : ReliableSession) :
    SameNumbers rs (rs.updateRtt sample) := by
  unfold updateRtt
  cases rs.haveRtt <;> exact ⟨rfl, rfl, rfl⟩

theorem acknowledge_pending (id now : UInt64) (rs : ReliableSession) :
    (rs.acknowledge id now).2.pending = rs.pending.eraseP fun m => m.messageId = id := by
  unfold acknowledge
  cases h : rs.pending.find? fun m => m.messageId = id with
  | some m => rfl
  | none =>
    rw [List.find?_eq_none] at h
    exact (List.eraseP_of_forall_not h).symm

theorem sameNumbers_acknowledge (id now : UInt64) (rs : ReliableSession) :
    SameNumbers rs (rs.acknowledge id now).2 := by
  unfold acknowledge
  cases rs.pending.find? fun m => m.messageId = id with
  | none => exact .refl rs
  | some m =>
    dsimp only
    split_ifs
    · have h := (sameNumbers_forget m rs).trans
        (sameNumbers_updateRtt (now - m.firstSendMs) (rs.forget m))
      exact ⟨h.cfg, h.nextMessageId, h.received⟩
    · exact ⟨rfl, rfl, rfl⟩

theorem contents_acknowledge (id now : UInt64) (rs : ReliableSession) :
    (rs.acknowledge id now).2.contents.Sublist rs.contents := by
  unfold contents
  rw [acknowledge_pending]
  exact List.eraseP_sublist.map _

theorem sameNumbers_expireOld (now : UInt64) (rs : ReliableSession) :
    SameNumbers rs (rs.expireOld now).2 := by
  have hfold : ∀ (ms : List PendingReliableMessage) (rs : ReliableSession),
      SameNumbers rs (ms.foldl (fun rs m => rs.forget m) rs) := by
    intro ms
    induction ms with
    | nil => exact .refl
    | cons m ms ih =>
      intro rs
      exact (sameNumbers_forget m rs).trans (ih _)
  have h := hfold (rs.pending.filter fun m => m.expired now) rs
  exact ⟨h.cfg, h.nextMessageId, h.received⟩

theorem contents_expireOld (now : UInt64) (rs : ReliableSession) :
    (rs.expireOld now).2.contents.Sublist rs.contents :=
  List.filter_sublist.map _

theorem map_content_replaceF (id now : UInt64) (ms : List PendingReliableMessage) :
    (ms.replaceF fun m => if m.messageId = id then some (m.markSent now) else none).map
      PendingReliableMessage.content = ms.map PendingReliableMessage.content := by
  induction ms with
  | nil => rfl
  | cons m ms ih =>
    rw [List.replaceF_cons]
    by_cases h : m.messageId = id
    · simp [h]
    · simp [h, ih]

theorem sameNumbers_noteSent (id now : UInt64) (rs : ReliableSession) :
    SameNumbers rs (rs.noteSent id now).2 := by
  unfold noteSent
  cases rs.pending.find? fun m => m.messageId = id with
  | none => exact .refl rs
  | some m =>
    dsimp only
    split_ifs <;> exact ⟨rfl, rfl, rfl⟩

@[simp] theorem contents_noteSent (id now : UInt64) (rs : ReliableSession) :
    (rs.noteSent id now).2.contents = rs.contents := by
  unfold noteSent
  cases rs.pending.find? fun m => m.messageId = id with
  | none => rfl
  | some m =>
    dsimp only
    split_ifs
    · rfl
    all_goals exact map_content_replaceF id now rs.pending

/-- A pass over the queue keeps every message and hands only queued messages to `fn`. -/
theorem resendLoop_spec {σ : Type} (now : UInt64)
    (fn : PendingReliableMessage → σ → Result Unit × σ) (I : σ → Prop)
    (ms : List PendingReliableMessage)
    (hfn : ∀ m s, m.content ∈ ms.map PendingReliableMessage.content → I s → I (fn m s).2)
    (rs : ReliableSession) (s : σ) (hs : I s) :
    (resendLoop now fn ms rs s).2.1.map PendingReliableMessage.content =
        ms.map PendingReliableMessage.content ∧
      SameNumbers rs (resendLoop now fn ms rs s).2.2.1 ∧
      I (resendLoop now fn ms rs s).2.2.2 := by
  -- Induction along the queue; the counters and the environment are carried along.
  induction ms generalizing rs s with
  | nil => exact ⟨rfl, .refl rs, hs⟩
  | cons m ms ih =>
    have htail : ∀ x s, x.content ∈ ms.map PendingReliableMessage.content → I s → I (fn x s).2 :=
      fun x s hx => hfn x s (List.mem_cons_of_mem _ hx)
    unfold resendLoop
    by_cases hskip : (m.expired now || m.waiting now) = true
    · obtain ⟨h1, h2, h3⟩ := ih htail rs s hs
      simp only [hskip, if_true]
      exact ⟨by simp [h1], h2, h3⟩
    · simp only [hskip]
      -- The message about to be sent has the content it was queued with.
      generalize hmr : (if m.inflight = true then _ else (m, rs)) = mr
      have hmc : mr.1.content = m.content := by
        rw [← hmr]
        split_ifs <;> rfl
      have hrs : SameNumbers rs mr.2 := by
        rw [← hmr]
        split_ifs <;> exact ⟨rfl, rfl, rfl⟩
      by_cases hmax : mr.2.cfg.maxInflightMessages ≤ mr.2.inflightCount
      · simp only [hmax, if_true]
        exact ⟨by simp [hmc], hrs, hs⟩
      · simp only [hmax, if_false]
        have hI : I (fn mr.1 s).2 := hfn _ s (by simp [hmc]) hs
        cases hf : fn mr.1 s with
        | mk rc s' =>
          rw [hf] at hI
          cases rc with
          | error e => exact ⟨by simp [hmc], hrs, hI⟩
          | ok u =>
            obtain ⟨h1, h2, h3⟩ :=
              ih htail { mr.2 with inflightCount := mr.2.inflightCount + 1 } s' hI
            refine ⟨by simp [h1, hmc], hrs.trans ?_, h3⟩
            exact ⟨h2.cfg, h2.nextMessageId, h2.received⟩

theorem resendDue_spec {σ : Type} (now : UInt64)
    (fn : PendingReliableMessage → σ → Result Unit × σ) (I : σ → Prop) (rs : ReliableSession)
    (hfn : ∀ m s, m.content ∈ rs.contents → I s → I (fn m s).2) (s : σ) (hs : I s) :
    (rs.resendDue now fn s).2.1.contents = rs.contents ∧
      SameNumbers rs (rs.resendDue now fn s).2.1 ∧ I (rs.resendDue now fn s).2.2 := by
  obtain ⟨h1, h2, h3⟩ := resendLoop_spec now fn I rs.pending hfn rs s hs
  unfold resendDue
  cases hr : resendLoop now fn rs.pending rs s with
  | mk rc rest =>
    obtain ⟨ps, rs', s'⟩ := rest
    rw [hr] at h1 h2 h3
    cases rc with
    | error e => exact ⟨h1, ⟨h2.cfg, h2.nextMessageId, h2.received⟩, h3⟩
    | ok u => exact ⟨h1, ⟨h2.cfg, h2.nextMessageId, h2.received⟩, h3⟩

end ReliableSession

end SecureCnet
