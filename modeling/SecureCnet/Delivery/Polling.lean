import SecureCnet.Delivery.Pacing

/-!
# Refills and how often they are polled

A refill credits whole bytes for the time since the last one and moves the reference
time, unless the credit is zero. The fraction of a byte it cuts off is gone. So polls at
several times leave as much in the bucket as one poll at the last of them exactly if the
fractions cut off on the way do not add up to a byte.
-/

namespace SecureCnet

namespace SendBudget

/-- Thousandths of a byte that accrue from time `r` to time `t`. -/
def accrued (rate : ℕ) (r t : UInt64) : ℕ := rate * (t.toNat - r.toNat)

/-- Whole bytes credited by polls at these times, after a refill at time `r`. -/
def credited (rate : ℕ) : UInt64 → List UInt64 → ℕ
  | _, [] => 0
  | r, t :: ts =>
    if accrued rate r t < 1000 then credited rate r ts
    else accrued rate r t / 1000 + credited rate t ts

/-- Thousandths of a byte that polls at these times have not credited at time `last`: the fractions
they cut off, and what has accrued since. -/
def uncredited (rate : ℕ) (last : UInt64) : UInt64 → List UInt64 → ℕ
  | r, [] => accrued rate r last
  | r, t :: ts =>
    if accrued rate r t < 1000 then uncredited rate last r ts
    else accrued rate r t % 1000 + uncredited rate last t ts

theorem accrued_add {r t last : UInt64} (hrt : r < t) (htl : t ≤ last) (rate : ℕ) :
    accrued rate r last = accrued rate r t + accrued rate t last := by
  unfold accrued
  rw [UInt64.lt_iff_toNat_lt] at hrt
  rw [UInt64.le_iff_toNat_le] at htl
  rw [← Nat.mul_add]
  congr 1
  omega

theorem credited_add_uncredited (rate : ℕ) {last r : UInt64} {ts : List UInt64}
    (hsorted : (r :: ts).Pairwise (· < ·)) (hlast : ∀ t ∈ ts, t ≤ last) :
    1000 * credited rate r ts + uncredited rate last r ts = accrued rate r last := by
  induction ts generalizing r with
  | nil => simp [credited, uncredited]
  | cons t ts ih =>
    obtain ⟨hbefore, hsorted'⟩ := List.pairwise_cons.mp hsorted
    have hlast' := fun u hu => hlast u (List.mem_cons_of_mem t hu)
    unfold credited uncredited
    split_ifs with hsmall
    · exact ih (hsorted.sublist ((List.sublist_cons_self t ts).cons_cons r)) hlast'
    · have hrest := ih hsorted' hlast'
      have hsplit := accrued_add (hbefore t List.mem_cons_self) (hlast t List.mem_cons_self) rate
      omega

theorem lt_of_credited_eq_zero {rate : ℕ} {r : UInt64} {ts : List UInt64}
    (h : credited rate r ts = 0) : ∀ t ∈ ts, accrued rate r t < 1000 := by
  induction ts with
  | nil => simp
  | cons t ts ih =>
    unfold credited at h
    split_ifs at h with hsmall
    · simpa using ⟨hsmall, ih h⟩
    · omega

variable {b : SendBudget} {t last : UInt64} {times : List UInt64}

def rate (b : SendBudget) : ℕ := b.congestion.rateBytesPerSecond.toNat

/-- No refill up to this time overflows or fills the bucket. -/
structure Roomy (last : UInt64) (b : SendBudget) : Prop where
  fits : accrued b.rate b.lastBudgetRefillMs last < 2 ^ 64
  room : b.sendBudgetBytes.toNat + accrued b.rate b.lastBudgetRefillMs last / 1000 ≤
    b.congestion.bucketCapBytes.toNat

/-- A refill that neither overflows nor fills the bucket. -/
theorem Roomy.refill (h : b.Roomy t) (hzero : b.lastBudgetRefillMs ≠ 0)
    (hlast : b.lastBudgetRefillMs < t) :
    accrued b.rate b.lastBudgetRefillMs t < 1000 ∧ b.refillSendBudget t = b ∨
      ¬accrued b.rate b.lastBudgetRefillMs t < 1000 ∧ ∃ bytes, b.refillSendBudget t =
        { b with sendBudgetBytes := bytes, lastBudgetRefillMs := t } ∧ bytes.toNat =
          b.sendBudgetBytes.toNat + accrued b.rate b.lastBudgetRefillMs t / 1000 := by
  have hfits := h.fits
  have hroom := h.room
  have hcap := b.congestion.bucketCapBytes.toNat_lt
  have hrefill := toNat_refill hlast
  unfold accrued rate at hfits hroom ⊢
  rw [Nat.mod_eq_of_lt hfits] at hrefill
  unfold refillSendBudget
  simp only [if_neg hzero, if_neg (UInt64.not_le.mpr hlast)]
  split_ifs with hgain <;> rw [UInt64.lt_iff_toNat_lt, hrefill] at hgain
  · refine Or.inr ⟨?_, _, rfl, ?_⟩
    · intro hsmall
      rw [Nat.div_eq_of_lt hsmall] at hgain
      cases hgain
    · rw [UInt64.toNat_min, UInt64.toNat_add, hrefill, Nat.mod_eq_of_lt (by omega)]
      exact min_eq_right hroom
  · have hzero' : (0 : UInt64).toNat = 0 := rfl
    exact Or.inl ⟨by omega, rfl⟩

/-- The bucket after polls at these times. -/
def polled (times : List UInt64) (b : SendBudget) : SendBudget :=
  times.foldl (fun b t => b.refillSendBudget t) b

theorem Roomy.toNat_polled (h : b.Roomy last) (hzero : b.lastBudgetRefillMs ≠ 0)
    (hsorted : (b.lastBudgetRefillMs :: times).Pairwise (· < ·)) (hlast : ∀ t ∈ times, t ≤ last) :
    (b.polled times).sendBudgetBytes.toNat =
      b.sendBudgetBytes.toNat + credited b.rate b.lastBudgetRefillMs times := by
  induction times generalizing b with
  | nil => rfl
  | cons t times ih =>
    obtain ⟨hbefore, hsorted'⟩ := List.pairwise_cons.mp hsorted
    have hlast' := fun u hu => hlast u (List.mem_cons_of_mem t hu)
    have hrt := hbefore t List.mem_cons_self
    have hsplit := accrued_add hrt (hlast t List.mem_cons_self) b.rate
    obtain ⟨hfits, hroom⟩ := h
    have hunfold : b.polled (t :: times) = (b.refillSendBudget t).polled times := rfl
    rw [hunfold]
    unfold credited
    rcases Roomy.refill ⟨by omega, by omega⟩ hzero hrt with
      ⟨hsmall, heq⟩ | ⟨hlarge, bytes, heq, hbytes⟩
    · rw [heq, if_pos hsmall]
      exact ih ⟨hfits, hroom⟩ hzero
        (hsorted.sublist ((List.sublist_cons_self t times).cons_cons _)) hlast'
    · rw [heq, if_neg hlarge, ih (b := { b with sendBudgetBytes := bytes, lastBudgetRefillMs := t })
        ⟨?_, ?_⟩ ?_ hsorted' hlast']
      · simp only [rate, hbytes] at hbytes ⊢
        omega
      · simp only [rate] at hsplit hfits ⊢
        omega
      · simp only [rate] at hsplit hroom hbytes ⊢
        omega
      · rintro rfl
        exact UInt64.not_lt_zero hrt

/-- The bytes a bucket has before it is refilled: at the first poll ever an empty one gets the bytes
of a second. -/
def opening (b : SendBudget) : UInt64 :=
  if b.lastBudgetRefillMs = 0 ∧ b.sendBudgetBytes = 0 then b.congestion.rateBytesPerSecond
  else b.sendBudgetBytes

/-- Whether polls at these times leave the bucket as one poll at the last of them would. Before the
first refill nothing accrues, so every byte credited between the polls is one too many. -/
def PollsExactly (t : UInt64) (times : List UInt64) (b : SendBudget) : Prop :=
  if b.lastBudgetRefillMs = 0 then accrued b.rate t (times.getLastD t) < 1000
  else uncredited b.rate (times.getLastD t) b.lastBudgetRefillMs (t :: times) < 1000

theorem getLastD_greatest (h : (t :: times).Pairwise (· < ·)) :
    times.getLastD t ∈ t :: times ∧ ∀ u ∈ t :: times, u ≤ times.getLastD t := by
  induction times generalizing t with
  | nil => simp
  | cons t' times ih =>
    obtain ⟨hbefore, hsorted⟩ := List.pairwise_cons.mp h
    obtain ⟨hmem, hrest⟩ := ih hsorted
    rw [List.getLastD_cons]
    refine ⟨List.mem_cons_of_mem t hmem, fun u hu => ?_⟩
    rcases List.mem_cons.mp hu with rfl | hu
    · exact UInt64.le_of_lt (hbefore _ hmem)
    · exact hrest u hu

/-- Polls at increasing times leave as much in the bucket as one poll at the last of them exactly if
less than a byte is cut off on the way, for every rate, every bucket and all times at which the
bucket does not fill up. -/
theorem polled_eq_once_iff (hrate : b.rate < 2 ^ 32)
    (hsorted : (b.lastBudgetRefillMs :: t :: times).Pairwise (· < ·))
    (hroom : b.opening.toNat + accrued b.rate b.lastBudgetRefillMs (times.getLastD t) / 1000 ≤
      b.congestion.bucketCapBytes.toNat) :
    (b.polled (t :: times)).sendBudgetBytes =
        (b.refillSendBudget (times.getLastD t)).sendBudgetBytes ↔ b.PollsExactly t times := by
  obtain ⟨hbefore, hsorted'⟩ := List.pairwise_cons.mp hsorted
  obtain ⟨hmem, hlast⟩ := getLastD_greatest hsorted'
  have hlast' := fun u hu => hlast u (List.mem_cons_of_mem t hu)
  unfold PollsExactly
  generalize times.getLastD t = last at *
  have hfits : accrued b.rate b.lastBudgetRefillMs last < 2 ^ 64 := by
    have hcap : b.congestion.bucketCapBytes.toNat ≤ 2 ^ 33 := by
      unfold CongestionController.bucketCapBytes
      rw [UInt64.toNat_max, UInt64.toNat_mul]
      unfold rate at hrate
      exact max_le (by decide) ((Nat.mod_le _ _).trans (by simpa using by omega))
    omega
  rw [← UInt64.toNat_inj]
  by_cases hzero : b.lastBudgetRefillMs = 0
  · -- The first poll opens the bucket and sets the reference time.
    have hopen : ∀ u, b.refillSendBudget u =
        { b with sendBudgetBytes := b.opening, lastBudgetRefillMs := u } := by
      intro u
      simp [refillSendBudget, opening, hzero]
    have hsplit := accrued_add (hbefore t List.mem_cons_self) (hlast t List.mem_cons_self) b.rate
    have hpolled := @Roomy.toNat_polled (b.refillSendBudget t) last times
    have hsum := credited_add_uncredited b.rate hsorted' hlast'
    rw [if_pos hzero, show b.polled (t :: times) = (b.refillSendBudget t).polled times from rfl,
      hpolled, hopen, hopen]
    · dsimp only [rate] at hsum ⊢
      constructor
      · intro heq
        rcases List.mem_cons.mp hmem with rfl | hmem
        · simp [accrued]
        · exact lt_of_credited_eq_zero (Nat.add_eq_left.mp heq) _ hmem
      · intro hsmall
        omega
    · rw [hopen]
      constructor
      · dsimp only [rate] at hsplit hfits ⊢
        omega
      · dsimp only [rate] at hsplit hroom ⊢
        omega
    · rw [hopen]
      rintro rfl
      exact UInt64.not_lt_zero (hbefore 0 List.mem_cons_self)
    · rw [hopen]
      exact hsorted'
    · exact hlast'
  · have hopening : b.opening = b.sendBudgetBytes := by simp [opening, hzero]
    have hroomy : b.Roomy last := ⟨hfits, hopening ▸ hroom⟩
    have honce := @Roomy.toNat_polled b last [last] hroomy hzero
      (by simpa using hbefore last hmem) (by simp)
    have hsum := credited_add_uncredited b.rate hsorted hlast
    rw [if_neg hzero, hroomy.toNat_polled hzero hsorted hlast,
      show b.refillSendBudget last = b.polled [last] from rfl, honce]
    simp only [credited, Nat.add_zero] at hsum ⊢
    split_ifs at hsum ⊢ <;> omega

/-- An empty bucket, refilled at time 1000, of a session without congestion control. -/
def atRate (bytesPerSecond : UInt32) : SendBudget where
  congestion := CongestionController.configure { enabled := false } bytesPerSecond {}
  lastBudgetRefillMs := 1000

/-- At 1000 bytes a second every millisecond brings a whole byte. -/
theorem polled_twice_at_whole_rate : ((atRate 1000).polled [1001, 1002]).sendBudgetBytes =
    ((atRate 1000).refillSendBudget 1002).sendBudgetBytes :=
  (@polled_eq_once_iff (atRate 1000) 1001 [1002] (by decide) (by decide) (by decide)).mpr
    (by unfold PollsExactly; decide)

/-- At 1500 bytes a second a poll in every millisecond loses half a byte each time. -/
theorem polls_lose_fractions : ((atRate 1500).polled [1001, 1002]).sendBudgetBytes = 2 ∧
    ((atRate 1500).refillSendBudget 1002).sendBudgetBytes = 3 ∧
    (1000 : UInt64) < 1001 ∧ 3 < (atRate 1500).congestion.bucketCapBytes := by
  decide

end SendBudget

end SecureCnet
