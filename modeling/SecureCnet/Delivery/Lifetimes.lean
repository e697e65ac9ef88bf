import SecureCnet.Delivery.ReliableRuns

/-!
# Lifetimes

A pending message with a lifetime is removed by `expire_old` and passed over by a
retransmission pass once its time is over. Both compare the clock with the 64-bit sum
`enqueued_ms + lifetime_ms`, which is the deadline only as long as it does not overflow.
-/

namespace SecureCnet

namespace PendingReliableMessage

/-- The message has a lifetime, and as much time has passed since it was queued. -/
def OutOfTime (nowMs : UInt64) (m : PendingReliableMessage) : Prop :=
  0 < m.lifetimeMs.toNat ∧ m.lifetimeMs.toNat ≤ nowMs.toNat - m.enqueuedMs.toNat

/-- The time at which a lifetime ends, if it has one, is a 64-bit number. -/
def DeadlineFits (m : PendingReliableMessage) : Prop :=
  m.lifetimeMs = 0 ∨ m.enqueuedMs.toNat + m.lifetimeMs.toNat < 2 ^ 64

instance (m : PendingReliableMessage) : Decidable m.DeadlineFits :=
  inferInstanceAs (Decidable (_ ∨ _))

variable {m : PendingReliableMessage} {now : UInt64}

theorem lifetime_pos_iff : 0 < m.lifetimeMs ↔ 0 < m.lifetimeMs.toNat := UInt64.lt_iff_toNat_lt

theorem expired_iff : m.expired now = true ↔
    0 < m.lifetimeMs.toNat ∧
      (m.enqueuedMs.toNat + m.lifetimeMs.toNat) % 2 ^ 64 ≤ now.toNat := by
  unfold expired
  rw [Bool.and_eq_true, decide_eq_true_eq, decide_eq_true_eq, lifetime_pos_iff,
    UInt64.le_iff_toNat_le, UInt64.toNat_add]

theorem expired_iff_outOfTime (h : m.DeadlineFits) (hnow : m.enqueuedMs ≤ now) :
    m.expired now = true ↔ m.OutOfTime now := by
  rw [UInt64.le_iff_toNat_le] at hnow
  rw [expired_iff, OutOfTime]
  rcases h with h0 | hfits
  · simp [h0]
  · rw [Nat.mod_eq_of_lt hfits]
    omega

theorem expired_of_overflow (h : ¬m.DeadlineFits) : m.expired m.enqueuedMs = true := by
  obtain ⟨hlife, hover⟩ := not_or.mp h
  have hpos : 0 < m.lifetimeMs.toNat := by
    apply Nat.pos_of_ne_zero
    intro h0
    exact hlife (UInt64.toNat_inj.mp h0)
  have ht := m.enqueuedMs.toNat_lt
  have hl := m.lifetimeMs.toNat_lt
  rw [expired_iff]
  refine ⟨hpos, ?_⟩
  have hwrap : (m.enqueuedMs.toNat + m.lifetimeMs.toNat) % 2 ^ 64 =
      m.enqueuedMs.toNat + m.lifetimeMs.toNat - 2 ^ 64 := by
    rw [Nat.mod_eq_sub_mod (not_lt.mp hover), Nat.mod_eq_of_lt (by omega)]
  omega

theorem not_outOfTime_enqueuedMs : ¬m.OutOfTime m.enqueuedMs := by
  rintro ⟨hpos, hle⟩
  omega

end PendingReliableMessage

namespace ReliableSession

variable {σ : Type}

/-- How a retransmission pass leaves a message it came to. -/
inductive Visit
  | aged
  | waiting
  | blocked
  | failed
  | sent
  deriving DecidableEq, Repr

/-- The retransmission pass with a record of why it left each message it came to. -/
def resendRecorded (nowMs : UInt64) (fn : PendingReliableMessage → σ → Result Unit × σ) :
    List PendingReliableMessage → ReliableSession → σ →
      (Result Unit × List PendingReliableMessage × ReliableSession × σ) × List Visit
  | [], rs, s => ((.ok (), [], rs, s), [])
  | m :: ms, rs, s =>
    if m.expired nowMs then
      let rest := resendRecorded nowMs fn ms rs s
      ((rest.1.1, m :: rest.1.2.1, rest.1.2.2), .aged :: rest.2)
    else if m.waiting nowMs then
      let rest := resendRecorded nowMs fn ms rs s
      ((rest.1.1, m :: rest.1.2.1, rest.1.2.2), .waiting :: rest.2)
    else
      let (m, rs) := timedOut m rs
      if rs.cfg.maxInflightMessages ≤ rs.inflightCount then ((.ok (), m :: ms, rs, s), [.blocked])
      else
        match fn m s with
        | (.error e, s) => ((.error e, m :: ms, rs, s), [.failed])
        | (.ok (), s) =>
          let rest := resendRecorded nowMs fn ms rs.countSent s
          ((rest.1.1, m.markSent nowMs :: rest.1.2.1, rest.1.2.2), .sent :: rest.2)

variable (now : UInt64) (fn : PendingReliableMessage → σ → Result Unit × σ)
  {m : PendingReliableMessage} {rs : ReliableSession}

/-- The record changes nothing. -/
theorem resendRecorded_value (ms : List PendingReliableMessage) (rs : ReliableSession) (s : σ) :
    (resendRecorded now fn ms rs s).1 = resendLoop now fn ms rs s := by
  induction ms generalizing rs s with
  | nil => rfl
  | cons m ms ih =>
    rw [resendRecorded, resendLoop_cons]
    by_cases hexp : m.expired now = true
    · rw [if_pos hexp, if_pos (by simp [hexp])]
      dsimp only
      rw [ih]
    rw [if_neg hexp]
    by_cases hwait : m.waiting now = true
    · rw [if_pos hwait, if_pos (by simp [hwait])]
      dsimp only
      rw [ih]
    rw [if_neg hwait, if_neg (by simp [hexp, hwait])]
    dsimp only
    split_ifs with hfull
    · rfl
    · rcases fn (timedOut m rs).1 s with ⟨_ | _, s'⟩
      · rfl
      · dsimp only
        rw [ih]

/-- The first entry of the record is about the first message, and the others are the record of
the rest, if the pass gets that far. -/
theorem resendRecorded_cons (m : PendingReliableMessage) (ms : List PendingReliableMessage)
    (rs : ReliableSession) (s : σ) :
    ∃ v vs, (resendRecorded now fn (m :: ms) rs s).2 = v :: vs ∧
      (v = .aged ↔ m.expired now = true) ∧
      (vs = [] ∨ ∃ rs' s', vs = (resendRecorded now fn ms rs' s').2) := by
  rw [resendRecorded]
  by_cases hexp : m.expired now = true
  · rw [if_pos hexp]
    exact ⟨.aged, _, rfl, iff_of_true rfl hexp, .inr ⟨rs, s, rfl⟩⟩
  have hnot : ∀ v : Visit, v ≠ .aged → (v = .aged ↔ m.expired now = true) := fun v hv =>
    iff_of_false hv hexp
  rw [if_neg hexp]
  dsimp only
  split_ifs with hwait hfull
  · exact ⟨.waiting, _, rfl, hnot _ nofun, .inr ⟨rs, s, rfl⟩⟩
  · exact ⟨.blocked, _, rfl, hnot _ nofun, .inl rfl⟩
  · rcases fn (timedOut m rs).1 s with ⟨_ | _, s'⟩
    · exact ⟨.failed, _, rfl, hnot _ nofun, .inl rfl⟩
    · exact ⟨.sent, _, rfl, hnot _ nofun, .inr ⟨_, s', rfl⟩⟩

theorem resendRecorded_aged_iff {ms : List PendingReliableMessage} {s : σ} {i : ℕ} {v : Visit}
    (hm : ms[i]? = some m) (hv : (resendRecorded now fn ms rs s).2[i]? = some v) :
    v = .aged ↔ m.expired now = true := by
  induction ms generalizing rs s i with
  | nil => cases hm
  | cons x ms ih =>
    obtain ⟨w, ws, hrecord, hw, hrest⟩ := resendRecorded_cons now fn x ms rs s
    rw [hrecord] at hv
    cases i with
    | zero =>
      cases hm
      cases hv
      exact hw
    | succ i =>
      rcases hrest with rfl | ⟨rs', s', rfl⟩
      · cases hv
      · exact ih hm hv

theorem mem_expireOld_iff (h : m ∈ rs.pending) :
    m ∈ (rs.expireOld now).2.pending ↔ m.expired now = false := by
  unfold expireOld
  simp [h]

/-- At a time, `expire_old` removes the message, and a retransmission pass that comes to it
skips it for its age, exactly if its lifetime is over. -/
structure AgesExactly (rs : ReliableSession) (m : PendingReliableMessage) (now : UInt64) :
    Prop where
  removed : m ∉ (rs.expireOld now).2.pending ↔ m.OutOfTime now
  /-- The record below is of the pass of the code. -/
  recorded : ∀ {σ : Type} (fn : PendingReliableMessage → σ → Result Unit × σ) (s : σ),
    (resendRecorded now fn rs.pending rs s).1 = resendLoop now fn rs.pending rs s
  skipped : ∀ {σ : Type} (fn : PendingReliableMessage → σ → Result Unit × σ) (s : σ) (i : ℕ)
    (v : Visit), rs.pending[i]? = some m →
    (resendRecorded now fn rs.pending rs s).2[i]? = some v → (v = .aged ↔ m.OutOfTime now)

/-- Lifetimes are exact for the messages whose deadline is a 64-bit number, and for no others. -/
theorem ages_exactly_iff (h : m ∈ rs.pending) :
    (∀ now, m.enqueuedMs ≤ now → rs.AgesExactly m now) ↔ m.DeadlineFits := by
  constructor
  · intro hexact
    by_contra hover
    have hgone : m ∉ (rs.expireOld m.enqueuedMs).2.pending := by
      rw [mem_expireOld_iff _ h, PendingReliableMessage.expired_of_overflow hover]
      exact Bool.true_eq_false_eq_False
    have hout := (hexact m.enqueuedMs (UInt64.le_refl _)).removed.mp hgone
    exact PendingReliableMessage.not_outOfTime_enqueuedMs hout
  · intro hfits now hnow
    have hexp := PendingReliableMessage.expired_iff_outOfTime hfits hnow
    constructor
    · rw [mem_expireOld_iff now h, Bool.not_eq_false, hexp]
    · intro σ fn s
      exact resendRecorded_value now fn rs.pending rs s
    · intro σ fn s i v hm hv
      rw [resendRecorded_aged_iff now fn hm hv, hexp]

/-- One message with the given lifetime, queued at the given time. -/
def oneQueued (lifetimeMs nowMs : UInt64) : ReliableSession :=
  ((configure {} {}).enqueue 0 [7] .normal lifetimeMs nowMs).2

/-- The message of `oneQueued`. -/
def theMessage (lifetimeMs nowMs : UInt64) : PendingReliableMessage :=
  (configure {} {}).queued 0 [7] .normal lifetimeMs nowMs

/-- A message queued at 5 for 3 ms is there at 7 and gone at 8. -/
theorem three_ms_kept_exactly :
    theMessage 3 5 ∈ ((oneQueued 3 5).expireOld 7).2.pending ∧
      theMessage 3 5 ∉ ((oneQueued 3 5).expireOld 8).2.pending := by
  have hmem : theMessage 3 5 ∈ (oneQueued 3 5).pending := by decide
  have hfits : (theMessage 3 5).DeadlineFits := by decide
  have hexact := (ages_exactly_iff hmem).mpr hfits
  constructor
  · by_contra hgone
    have hout := (hexact 7 (by decide)).removed.mp hgone
    exact absurd hout.2 (by decide)
  · exact (hexact 8 (by decide)).removed.mpr ⟨by decide, by decide⟩

/-- The longest lifetime there is, given at time 1, is over at once: the message is removed
and not sent although no time has passed. Without a lifetime it is sent. -/
theorem longest_lifetime_over_at_once :
    theMessage 0xFFFFFFFFFFFFFFFF 1 ∈ (oneQueued 0xFFFFFFFFFFFFFFFF 1).pending ∧
      ¬(oneQueued 0xFFFFFFFFFFFFFFFF 1).AgesExactly (theMessage 0xFFFFFFFFFFFFFFFF 1) 1 ∧
      ((oneQueued 0xFFFFFFFFFFFFFFFF 1).resendDue 1 (recording sending) ((), [])).2.2.2 = [] ∧
      ((oneQueued 0 1).resendDue 1 (recording sending) ((), [])).2.2.2 = [1] := by
  refine ⟨by decide, fun hexact => ?_, by decide, by decide⟩
  have hout := hexact.removed.mp (by decide)
  exact absurd hout.2 (by decide)

end ReliableSession

end SecureCnet
