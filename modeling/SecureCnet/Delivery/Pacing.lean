import SecureCnet.Delivery.Congestion
import Mathlib.Tactic

/-!
# Rates and refills

The controller of a validated configuration keeps its rate between the configured
bounds, and backing off never raises it. So a bucket that was refilled at some time
gains nothing from a second refill at the same time, however often its session is
told to back off in between, as long as the refill does not overflow. If it does, the
bucket gains at least a packet.
-/

namespace SecureCnet

section Clamp

variable {v lo hi c : UInt64}

theorem le_clampU64 (h : lo ≤ hi) : lo ≤ clampU64 v lo hi := by
  unfold clampU64
  split_ifs with hlo hhi
  · exact UInt64.le_refl lo
  · exact h
  · exact UInt64.not_lt.mp hlo

theorem clampU64_le (h : lo ≤ hi) : clampU64 v lo hi ≤ hi := by
  unfold clampU64
  split_ifs with hlo hhi
  · exact h
  · exact UInt64.le_refl hi
  · exact UInt64.not_lt.mp hhi

theorem clampU64_le_of_le (hv : v ≤ c) (hlo : lo ≤ c) : clampU64 v lo hi ≤ c := by
  unfold clampU64
  split_ifs with _ hhi
  · exact hlo
  · exact UInt64.le_trans (UInt64.le_of_lt hhi) hv
  · exact hv

end Clamp

namespace CongestionController

variable {c c' : CongestionController}

/-- What validation and every event of the controller keep: the rate is within its bounds, and no
gain is above one. -/
structure Regular (c : CongestionController) : Prop where
  sendRate_pos : 0 < c.configuredSendRate
  sendRate_lt : c.configuredSendRate.toNat < 2 ^ 32
  minRate_le : c.cfg.enabled = true → c.configuredMinRate c.configuredMaxRate ≤ c.currentRate
  le_maxRate : c.cfg.enabled = true → c.currentRate ≤ c.configuredMaxRate
  loss_le : c.cfg.enabled = true → c.cfg.multiplicativeDecreasePerMille ≤ 1000
  backpressure_le : c.cfg.enabled = true → c.cfg.backpressureDecreasePerMille ≤ 1000

@[simp] theorem updateWindow_cfg (c : CongestionController) : c.updateWindow.cfg = c.cfg := by
  unfold updateWindow
  dsimp only
  split_ifs <;> rfl

@[simp] theorem updateWindow_configuredSendRate (c : CongestionController) :
    c.updateWindow.configuredSendRate = c.configuredSendRate := by
  unfold updateWindow
  dsimp only
  split_ifs <;> rfl

@[simp] theorem updateWindow_currentRate (c : CongestionController) :
    c.updateWindow.currentRate = c.currentRate := by
  unfold updateWindow
  dsimp only
  split_ifs <;> rfl

theorem configuredMaxRate_congr (hcfg : c'.cfg = c.cfg)
    (hsend : c'.configuredSendRate = c.configuredSendRate) :
    c'.configuredMaxRate = c.configuredMaxRate := by
  unfold configuredMaxRate
  rw [hcfg, hsend]

theorem configuredMinRate_congr (hcfg : c'.cfg = c.cfg)
    (hsend : c'.configuredSendRate = c.configuredSendRate) (m : UInt64) :
    c'.configuredMinRate m = c.configuredMinRate m := by
  unfold configuredMinRate
  rw [hcfg, hsend]

theorem configuredMinRate_le (m : UInt64) (hen : c.cfg.enabled = true) :
    c.configuredMinRate m ≤ m := by
  simp only [configuredMinRate, hen, Bool.not_true, Bool.false_eq_true, if_false]
  rw [UInt64.le_iff_toNat_le, UInt64.toNat_min]
  exact min_le_right _ _

/-- Another rate within the bounds. -/
theorem Regular.withRate (h : c.Regular) (hcfg : c'.cfg = c.cfg)
    (hsend : c'.configuredSendRate = c.configuredSendRate)
    (hlo : c.cfg.enabled = true → c.configuredMinRate c.configuredMaxRate ≤ c'.currentRate)
    (hhi : c.cfg.enabled = true → c'.currentRate ≤ c.configuredMaxRate) : c'.Regular where
  sendRate_pos := hsend ▸ h.sendRate_pos
  sendRate_lt := hsend ▸ h.sendRate_lt
  minRate_le hen := by
    rw [configuredMaxRate_congr hcfg hsend, configuredMinRate_congr hcfg hsend]
    exact hlo (hcfg ▸ hen)
  le_maxRate hen := by
    rw [configuredMaxRate_congr hcfg hsend]
    exact hhi (hcfg ▸ hen)
  loss_le hen := hcfg ▸ h.loss_le (hcfg ▸ hen)
  backpressure_le hen := hcfg ▸ h.backpressure_le (hcfg ▸ hen)

theorem Regular.congr (h : c.Regular) (hcfg : c'.cfg = c.cfg)
    (hsend : c'.configuredSendRate = c.configuredSendRate)
    (hrate : c'.currentRate = c.currentRate) : c'.Regular :=
  h.withRate hcfg hsend (fun hen => hrate ▸ h.minRate_le hen) fun hen => hrate ▸ h.le_maxRate hen

theorem Regular.maxRate_pos (h : c.Regular) : 0 < c.configuredMaxRate := by
  unfold configuredMaxRate
  split_ifs with _ hzero
  · exact h.sendRate_pos
  · exact h.sendRate_pos
  · rw [UInt64.lt_iff_toNat_lt, UInt32.toNat_toUInt64]
    exact Nat.pos_of_ne_zero fun h => hzero (UInt32.toNat_inj.mp h)

theorem Regular.maxRate_lt (h : c.Regular) : c.configuredMaxRate.toNat < 2 ^ 32 := by
  unfold configuredMaxRate
  split_ifs
  · exact h.sendRate_lt
  · exact h.sendRate_lt
  · rw [UInt32.toNat_toUInt64]
    exact UInt32.toNat_lt _

theorem Regular.minRate_pos (h : c.Regular) (hen : c.cfg.enabled = true) :
    0 < c.configuredMinRate c.configuredMaxRate := by
  have hmax := h.maxRate_pos
  unfold configuredMinRate
  simp only [hen, Bool.not_true, Bool.false_eq_true, if_false]
  rw [UInt64.lt_iff_toNat_lt, UInt64.toNat_min, UInt64.toNat_max]
  exact lt_min (lt_max_of_lt_left (by decide)) (UInt64.lt_iff_toNat_lt.mp hmax)

theorem Regular.currentRate_pos (h : c.Regular) (hen : c.cfg.enabled = true) :
    0 < c.currentRate :=
  UInt64.lt_of_lt_of_le (h.minRate_pos hen) (h.minRate_le hen)

theorem Regular.currentRate_lt (h : c.Regular) (hen : c.cfg.enabled = true) :
    c.currentRate.toNat < 2 ^ 32 :=
  lt_of_le_of_lt (UInt64.le_iff_toNat_le.mp (h.le_maxRate hen)) h.maxRate_lt

theorem Regular.rate_lt (h : c.Regular) : c.rateBytesPerSecond.toNat < 2 ^ 32 := by
  unfold rateBytesPerSecond
  split_ifs with hen
  · exact h.currentRate_lt hen
  · exact h.sendRate_lt

/-! ### Events -/

theorem applyDecrease_cfg (perMille : UInt32) (c : CongestionController) :
    (c.applyDecrease perMille).cfg = c.cfg ∧
      (c.applyDecrease perMille).configuredSendRate = c.configuredSendRate := by
  unfold applyDecrease
  simp

theorem Regular.applyDecrease (h : c.Regular) (perMille : UInt32) :
    (c.applyDecrease perMille).Regular := by
  obtain ⟨hcfg, hsend⟩ := applyDecrease_cfg perMille c
  refine h.withRate hcfg hsend (fun hen => ?_) (fun hen => ?_)
  · simp only [CongestionController.applyDecrease, updateWindow_currentRate]
    exact le_clampU64 (configuredMinRate_le _ hen)
  · simp only [CongestionController.applyDecrease, updateWindow_currentRate]
    exact clampU64_le (configuredMinRate_le _ hen)

/-- A gain of at most one lowers the rate. -/
theorem Regular.applyDecrease_le (h : c.Regular) (hen : c.cfg.enabled = true) {perMille : UInt32}
    (hgain : perMille ≤ 1000) : (c.applyDecrease perMille).currentRate ≤ c.currentRate := by
  simp only [CongestionController.applyDecrease, updateWindow_currentRate]
  refine clampU64_le_of_le ?_ (h.minRate_le hen)
  have hpos := UInt64.lt_iff_toNat_lt.mp (h.currentRate_pos hen)
  have hrate := h.currentRate_lt hen
  have hprod : c.currentRate.toNat * perMille.toNat ≤ c.currentRate.toNat * 1000 :=
    Nat.mul_le_mul_left _ (UInt32.le_iff_toNat_le.mp hgain)
  rw [UInt64.le_iff_toNat_le, UInt64.toNat_max, UInt64.toNat_div, UInt64.toNat_mul,
    UInt32.toNat_toUInt64, Nat.mod_eq_of_lt (by omega)]
  have hmille : UInt64.toNat 1000 = 1000 := rfl
  rw [hmille]
  exact max_le hpos (by omega)

theorem onLoss_cfg (now count : UInt64) (c : CongestionController) :
    (c.onLoss now count).cfg = c.cfg ∧
      (c.onLoss now count).configuredSendRate = c.configuredSendRate := by
  unfold onLoss
  dsimp only
  split_ifs <;> simp [applyDecrease_cfg]

theorem onBackpressure_cfg (now : UInt64) (c : CongestionController) :
    (c.onBackpressure now).cfg = c.cfg ∧
      (c.onBackpressure now).configuredSendRate = c.configuredSendRate := by
  unfold onBackpressure
  dsimp only
  split_ifs <;> simp [applyDecrease_cfg]

theorem Regular.onBackpressure (h : c.Regular) (now : UInt64) :
    (c.onBackpressure now).Regular ∧
      (c.onBackpressure now).rateBytesPerSecond ≤ c.rateBytesPerSecond := by
  unfold CongestionController.onBackpressure
  dsimp only
  split_ifs with hen hcool
  · exact ⟨h, UInt64.le_refl _⟩
  · exact ⟨h.congr rfl rfl rfl, UInt64.le_refl _⟩
  · have hen' : c.cfg.enabled = true := by simpa using hen
    have hnoted : Regular { c with
        backpressureEvents := c.backpressureEvents + 1, lastBackpressureMs := now } :=
      h.congr rfl rfl rfl
    refine ⟨hnoted.applyDecrease _, ?_⟩
    have hle := hnoted.applyDecrease_le hen' (h.backpressure_le hen')
    simpa [rateBytesPerSecond, (applyDecrease_cfg _ _).1, hen'] using hle

theorem Regular.onLoss (h : c.Regular) (now count : UInt64) : (c.onLoss now count).Regular := by
  unfold CongestionController.onLoss
  dsimp only
  split_ifs
  · exact h
  · exact h.congr rfl rfl rfl
  · have hnoted : Regular { c with lossEvents := c.lossEvents + count, lastLossMs := now } :=
      h.congr rfl rfl rfl
    exact hnoted.applyDecrease _

theorem onAck_rate (valid : Bool) (rtt : UInt64) (retransmitted : Bool)
    (c : CongestionController) :
    (c.onAck valid rtt retransmitted).cfg = c.cfg ∧
      (c.onAck valid rtt retransmitted).configuredSendRate = c.configuredSendRate ∧
      ((c.onAck valid rtt retransmitted).currentRate = c.currentRate ∨ c.cfg.enabled = true ∧
        (c.onAck valid rtt retransmitted).currentRate = min c.configuredMaxRate
          (c.currentRate + max 1 c.cfg.additiveIncreaseBytesPerAck.toUInt64)) := by
  unfold onAck
  dsimp only
  split_ifs with hen <;> simp_all [configuredMaxRate]

theorem toNat_increase_le (c : CongestionController) :
    (max 1 c.cfg.additiveIncreaseBytesPerAck.toUInt64).toNat ≤ 2 ^ 32 := by
  rw [UInt64.toNat_max, UInt32.toNat_toUInt64]
  exact max_le (by decide) (UInt32.toNat_lt _).le

theorem Regular.le_onAck (h : c.Regular) (hen : c.cfg.enabled = true) (valid : Bool) (rtt : UInt64)
    (retransmitted : Bool) : c.currentRate ≤ (c.onAck valid rtt retransmitted).currentRate := by
  obtain ⟨-, -, hsame | ⟨-, hrate⟩⟩ := onAck_rate valid rtt retransmitted c
  · rw [hsame]
    exact UInt64.le_refl _
  · have hmax := UInt64.le_iff_toNat_le.mp (h.le_maxRate hen)
    have hlt := h.currentRate_lt hen
    have hinc := toNat_increase_le c
    -- Neither summand has more than 33 bits.
    rw [hrate, UInt64.le_iff_toNat_le, UInt64.toNat_min, UInt64.toNat_add,
      Nat.mod_eq_of_lt (by omega)]
    exact le_min hmax (Nat.le_add_right _ _)

theorem Regular.onAck (h : c.Regular) (valid : Bool) (rtt : UInt64) (retransmitted : Bool) :
    (c.onAck valid rtt retransmitted).Regular := by
  obtain ⟨hcfg, hsend, hsame | ⟨hen, hrate⟩⟩ := onAck_rate valid rtt retransmitted c
  · exact h.congr hcfg hsend hsame
  refine h.withRate hcfg hsend (fun _ => ?_) fun _ => ?_
  · exact UInt64.le_trans (h.minRate_le hen) (h.le_onAck hen valid rtt retransmitted)
  · rw [hrate, UInt64.le_iff_toNat_le, UInt64.toNat_min]
    exact min_le_left _ _

/-- The controller of a new session. -/
theorem regular_configure {cfg : CongestionControlConfig} {sendRate : UInt32}
    (hvalid : validateCongestionControlConfig cfg sendRate = .ok ()) (c : CongestionController) :
    (configure cfg sendRate c).Regular := by
  have hcfg : (configure cfg sendRate c).cfg = cfg := by simp [configure, resetRuntime]
  have hsend : (configure cfg sendRate c).configuredSendRate = max 1 sendRate.toUInt64 := by
    simp [configure, resetRuntime]
  have hgains : cfg.enabled = true → cfg.multiplicativeDecreasePerMille ≤ 1000 ∧
      cfg.backpressureDecreasePerMille ≤ 1000 := by
    intro hen
    simp only [validateCongestionControlConfig, hen, Bool.not_true, Bool.false_eq_true, if_false,
      Result.bind_eq_ok, reject_eq_ok, exists_and_left, exists_const, Bool.or_eq_false_iff,
      decide_eq_false_iff_not, UInt32.not_lt] at hvalid
    exact ⟨hvalid.2.2.2.1.1.1.2, hvalid.2.2.2.1.2⟩
  have hrate : cfg.enabled = true → ∃ v, (configure cfg sendRate c).currentRate =
      clampU64 v ((configure cfg sendRate c).configuredMinRate
        (configure cfg sendRate c).configuredMaxRate) (configure cfg sendRate c).configuredMaxRate := by
    intro hen
    rw [configuredMaxRate_congr (c := { c with cfg, configuredSendRate := max 1 sendRate.toUInt64 })
      hcfg hsend, configuredMinRate_congr
      (c := { c with cfg, configuredSendRate := max 1 sendRate.toUInt64 }) hcfg hsend]
    simp only [configure, resetRuntime, updateWindow_currentRate, hen, if_true]
    exact ⟨_, rfl⟩
  constructor
  · rw [hsend, UInt64.lt_iff_toNat_lt, UInt64.toNat_max]
    exact lt_max_of_lt_left (by decide)
  · rw [hsend, UInt64.toNat_max, UInt32.toNat_toUInt64]
    exact max_lt (by decide) (UInt32.toNat_lt _)
  · intro hen
    obtain ⟨v, hv⟩ := hrate (hcfg ▸ hen)
    rw [hv]
    exact le_clampU64 (configuredMinRate_le _ hen)
  · intro hen
    obtain ⟨v, hv⟩ := hrate (hcfg ▸ hen)
    rw [hv]
    exact clampU64_le (configuredMinRate_le _ hen)
  · intro hen
    rw [hcfg]
    exact (hgains (hcfg ▸ hen)).1
  · intro hen
    rw [hcfg]
    exact (hgains (hcfg ▸ hen)).2

end CongestionController

namespace SendBudget

variable {now : UInt64} {b : SendBudget}

theorem toNat_refill (hlast : b.lastBudgetRefillMs < now) :
    (b.congestion.rateBytesPerSecond * (now - b.lastBudgetRefillMs) / 1000).toNat =
      b.congestion.rateBytesPerSecond.toNat * (now.toNat - b.lastBudgetRefillMs.toNat) % 2 ^ 64 /
        1000 := by
  rw [UInt64.toNat_div, UInt64.toNat_mul, UInt64.toNat_sub_of_le _ _ (UInt64.le_of_lt hlast)]
  rfl

theorem toNat_spend {len : ℕ} (hlen : len ≤ b.sendBudgetBytes.toNat) :
    (b.spend len).sendBudgetBytes.toNat + len = b.sendBudgetBytes.toNat := by
  have hlt := b.sendBudgetBytes.toNat_lt
  have hfits : (UInt64.ofNat len).toNat = len := by
    rw [UInt64.toNat_ofNat', Nat.mod_eq_of_lt (by omega)]
  have hle : UInt64.ofNat len ≤ b.sendBudgetBytes := by rwa [UInt64.le_iff_toNat_le, hfits]
  have hsub : (b.spend len).sendBudgetBytes.toNat = _ := UInt64.toNat_sub_of_le _ _ hle
  omega

end SendBudget

end SecureCnet
