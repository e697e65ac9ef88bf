import SecureCnet.Delivery.Pacing

/-!
# Runs of the congestion controller

Whatever events an enabled controller of a validated configuration sees, its rate and its
window stay within the configured bounds and its arithmetic does not overflow. A signal
of its kind lowers the rate at most once in a cooldown.
-/

namespace SecureCnet

namespace CongestionController

/-- The signals a controller slows down at. -/
inductive Signal
  | loss
  | backpressure
  deriving DecidableEq

inductive Event
  | ack (rttSampleValid : Bool) (rttSampleMs : UInt64) (retransmitted : Bool)
  /-- `count` messages lost, or back-pressure from the socket. -/
  | signal (s : Signal) (nowMs count : UInt64)

def handle (c : CongestionController) : Event → CongestionController
  | .ack valid rtt retransmitted => c.onAck valid rtt retransmitted
  | .signal .loss now count => c.onLoss now count
  | .signal .backpressure now _ => c.onBackpressure now

def run (l : List Event) (c : CongestionController) : CongestionController := l.foldl handle c

/-- When a signal of the kind last lowered the rate. -/
def lastOf (c : CongestionController) : Signal → UInt64
  | .loss => c.lastLossMs
  | .backpressure => c.lastBackpressureMs

def cooldownOf (c : CongestionController) : Signal → UInt64
  | .loss => c.cfg.lossCooldownMs
  | .backpressure => c.cfg.backpressureCooldownMs

def gainOf (c : CongestionController) : Signal → UInt32
  | .loss => c.cfg.multiplicativeDecreasePerMille
  | .backpressure => c.cfg.backpressureDecreasePerMille

def Event.Short : Event → Prop
  | .ack _ rtt _ => rtt.toNat < 2 ^ 31
  | .signal .. => True

def Event.time : Event → Option UInt64
  | .ack .. => none
  | .signal _ now _ => some now

/-- The times at which signals of the kind lowered the rate. -/
def decreases (s : Signal) : List Event → CongestionController → List UInt64
  | [], _ => []
  | .signal s' now count :: l, c =>
    if s' = s ∧ (c.handle (.signal s' now count)).currentRate < c.currentRate then
      now :: decreases s l (c.handle (.signal s' now count))
    else decreases s l (c.handle (.signal s' now count))
  | .ack valid rtt retransmitted :: l, c => decreases s l (c.handle (.ack valid rtt retransmitted))

/-- Rate and window are within their bounds. -/
structure InBounds (c : CongestionController) : Prop where
  minRate_le : c.configuredMinRate c.configuredMaxRate ≤ c.currentRate
  rate_le : c.currentRate ≤ c.configuredMaxRate
  minWindow_le : c.cfg.minWindowBytes.toUInt64 ≤ c.currentWindow
  window_le : c.currentWindow ≤ c.configuredMaxWindow c.configuredMaxRate

/-- The operations of `update_window` fit in 64 bits. -/
def WindowFits (c : CongestionController) : Prop :=
  c.currentRate.toNat * max 25 (if c.smoothedRttMs = 0 then 100 else c.smoothedRttMs.toNat) <
      2 ^ 64 ∧ c.configuredMaxRate.toNat * 2 < 2 ^ 64

/-- The operations of an event on rate, window and round-trip time fit in 64 bits. -/
def Fits (c : CongestionController) (e : Event) : Prop :=
  (c.handle e).WindowFits ∧
    match e with
    | .ack _ rtt _ => c.smoothedRttMs.toNat * 7 + rtt.toNat < 2 ^ 64 ∧
        c.currentRate.toNat + max 1 c.cfg.additiveIncreaseBytesPerAck.toNat < 2 ^ 64
    | .signal s _ _ => c.currentRate.toNat * (c.gainOf s).toNat < 2 ^ 64

/-- Acknowledgements never lower the rate, signals never raise it. -/
def Directed (c : CongestionController) : Event → Prop
  | .ack valid rtt retransmitted => c.currentRate ≤ (c.onAck valid rtt retransmitted).currentRate
  | .signal s now count => (c.handle (.signal s now count)).currentRate ≤ c.currentRate

variable {c c' : CongestionController}

/-- What every event keeps. -/
structure Sound (c : CongestionController) : Prop extends c.Regular where
  enabled : c.cfg.enabled = true
  minWindow_le : c.cfg.minWindowBytes.toUInt64 ≤ c.currentWindow
  window_le : c.currentWindow ≤ c.configuredMaxWindow c.configuredMaxRate
  windows : c.cfg.minWindowBytes.toUInt64 ≤ c.configuredMaxWindow c.configuredMaxRate
  smoothed_lt : c.smoothedRttMs.toNat < 2 ^ 31

theorem sound_updateWindow (hreg : c.updateWindow.Regular) (hen : c.cfg.enabled = true)
    (hwindows : c.cfg.minWindowBytes.toUInt64 ≤ c.configuredMaxWindow c.configuredMaxRate)
    (hsmoothed : c.smoothedRttMs.toNat < 2 ^ 31) : c.updateWindow.Sound := by
  unfold updateWindow at hreg ⊢
  simp only [hen, Bool.not_true, Bool.false_eq_true, if_false] at hreg ⊢
  exact ⟨hreg, hen, le_clampU64 hwindows, clampU64_le hwindows, hwindows, hsmoothed⟩

theorem Sound.applyDecrease (h : c.Sound) (perMille : UInt32) : (c.applyDecrease perMille).Sound :=
  sound_updateWindow (h.toRegular.applyDecrease perMille) h.enabled h.windows h.smoothed_lt

/-- The estimate stays an average of numbers below 2³¹. -/
theorem Sound.onAck (h : c.Sound) (valid : Bool) {rtt : UInt64} (retransmitted : Bool)
    (hrtt : rtt.toNat < 2 ^ 31) : (c.onAck valid rtt retransmitted).Sound := by
  have hsmoothed := h.smoothed_lt
  have havg : ((c.smoothedRttMs * 7 + rtt) / 8).toNat < 2 ^ 31 := by
    have hmod := Nat.mod_le (c.smoothedRttMs.toNat * 7 % 2 ^ 64 + rtt.toNat) (2 ^ 64)
    have hmul := Nat.mod_le (c.smoothedRttMs.toNat * 7) (2 ^ 64)
    rw [UInt64.toNat_div, UInt64.toNat_add, UInt64.toNat_mul]
    exact Nat.div_lt_of_lt_mul (by simp only [UInt64.reduceToNat]; omega)
  have hreg := h.toRegular.onAck valid rtt retransmitted
  unfold CongestionController.onAck at hreg ⊢
  simp only [h.enabled, Bool.not_true, Bool.false_eq_true, if_false] at hreg ⊢
  split_ifs at hreg ⊢
  all_goals first
    | exact ⟨hreg, h.enabled, h.minWindow_le, h.window_le, h.windows, by assumption⟩
    | exact sound_updateWindow hreg h.enabled h.windows (by assumption)

/-- A signal within the cooldown is only counted; after it the rate goes down. -/
theorem Sound.signal_cases (h : c.Sound) (s : Signal) (now count : UInt64) :
    ∃ d : CongestionController, d.Sound ∧ d.cfg = c.cfg ∧ d.currentRate = c.currentRate ∧
      (∀ s' ≠ s, d.lastOf s' = c.lastOf s') ∧
      (c.handle (.signal s now count) = d ∧ d.lastOf s = c.lastOf s ∨
        c.handle (.signal s now count) = d.applyDecrease (d.gainOf s) ∧ d.lastOf s = now ∧
          ¬(c.lastOf s ≠ 0 ∧ c.lastOf s ≤ now ∧ now - c.lastOf s < c.cooldownOf s)) := by
  have hnoted : ∀ losses backpressures lossMs backpressureMs, Sound { c with
      lossEvents := losses, backpressureEvents := backpressures
      lastLossMs := lossMs, lastBackpressureMs := backpressureMs } := fun _ _ _ _ =>
    ⟨h.toRegular.congr rfl rfl rfl, h.enabled, h.minWindow_le, h.window_le, h.windows, h.smoothed_lt⟩
  cases s with
  | loss =>
    have hother : ∀ {d : CongestionController}, d.lastBackpressureMs = c.lastBackpressureMs →
        ∀ s' ≠ Signal.loss, d.lastOf s' = c.lastOf s' := by
      intro d hd s' hs
      cases s' <;> first | exact absurd rfl hs | exact hd
    simp only [handle, onLoss, h.enabled]
    split_ifs with hcount hcool
    · exact ⟨c, h, rfl, rfl, hother rfl, Or.inl ⟨rfl, rfl⟩⟩
    · exact ⟨_, hnoted (c.lossEvents + count) _ _ _, rfl, rfl, hother rfl, Or.inl ⟨rfl, rfl⟩⟩
    · exact ⟨_, hnoted (c.lossEvents + count) _ now _, rfl, rfl, hother rfl, Or.inr ⟨rfl, rfl, hcool⟩⟩
  | backpressure =>
    have hother : ∀ {d : CongestionController}, d.lastLossMs = c.lastLossMs →
        ∀ s' ≠ Signal.backpressure, d.lastOf s' = c.lastOf s' := by
      intro d hd s' hs
      cases s' <;> first | exact absurd rfl hs | exact hd
    simp only [handle, onBackpressure, h.enabled]
    split_ifs with hoff hcool
    · exact ⟨c, h, rfl, rfl, hother rfl, Or.inl ⟨rfl, rfl⟩⟩
    · exact ⟨_, hnoted _ (c.backpressureEvents + 1) _ _, rfl, rfl, hother rfl, Or.inl ⟨rfl, rfl⟩⟩
    · exact ⟨_, hnoted _ (c.backpressureEvents + 1) _ now, rfl, rfl, hother rfl,
        Or.inr ⟨rfl, rfl, hcool⟩⟩

theorem Sound.handle (h : c.Sound) {e : Event} (he : e.Short) : (c.handle e).Sound := by
  cases e with
  | ack valid rtt retransmitted => exact h.onAck valid retransmitted he
  | signal s now count =>
    obtain ⟨d, hd, -, -, -, ⟨heq, -⟩ | ⟨heq, -⟩⟩ := h.signal_cases s now count
    · exact heq ▸ hd
    · exact heq ▸ hd.applyDecrease _

theorem Sound.inBounds (h : c.Sound) : c.InBounds :=
  ⟨h.minRate_le h.enabled, h.le_maxRate h.enabled, h.minWindow_le, h.window_le⟩

theorem Sound.directed (h : c.Sound) (e : Event) : c.Directed e := by
  cases e with
  | ack valid rtt retransmitted => exact h.le_onAck h.enabled valid rtt retransmitted
  | signal s now count =>
    dsimp only [Directed]
    obtain ⟨d, hd, -, hrate, -, ⟨heq, -⟩ | ⟨heq, -⟩⟩ := h.signal_cases s now count
    · rw [heq, hrate]
      exact UInt64.le_refl _
    · rw [heq, ← hrate]
      apply hd.applyDecrease_le hd.enabled
      cases s with
      | loss => exact hd.loss_le hd.enabled
      | backpressure => exact hd.backpressure_le hd.enabled

theorem Sound.windowFits (h : c.Sound) : c.WindowFits := by
  have hrate := h.currentRate_lt h.enabled
  have hmax := h.maxRate_lt
  have hsmoothed := h.smoothed_lt
  refine ⟨?_, by omega⟩
  have hrtt : max 25 (if c.smoothedRttMs = 0 then 100 else c.smoothedRttMs.toNat) ≤ 2 ^ 31 := by
    split_ifs <;> omega
  calc _ ≤ c.currentRate.toNat * 2 ^ 31 := Nat.mul_le_mul_left _ hrtt
    _ < 2 ^ 64 := by omega

theorem Sound.fits (h : c.Sound) {e : Event} (he : e.Short) : c.Fits e := by
  refine ⟨(h.handle he).windowFits, ?_⟩
  have hrate := h.currentRate_lt h.enabled
  have hsmoothed := h.smoothed_lt
  cases e with
  | ack valid rtt retransmitted =>
    have hinc := c.cfg.additiveIncreaseBytesPerAck.toNat_lt
    have hrtt : rtt.toNat < 2 ^ 31 := he
    constructor <;> omega
  | signal s now count =>
    have hgain := (c.gainOf s).toNat_lt
    calc _ ≤ c.currentRate.toNat * 2 ^ 32 := Nat.mul_le_mul_left _ hgain.le
      _ < 2 ^ 64 := by omega

@[simp] theorem updateWindow_lastOf (s : Signal) (c : CongestionController) :
    c.updateWindow.lastOf s = c.lastOf s := by
  unfold updateWindow
  dsimp only
  split_ifs <;> cases s <;> rfl

theorem onAck_lastOf (s : Signal) (valid : Bool) (rtt : UInt64) (retransmitted : Bool)
    (c : CongestionController) : (c.onAck valid rtt retransmitted).lastOf s = c.lastOf s := by
  unfold onAck
  dsimp only
  split_ifs <;> (try rw [updateWindow_lastOf]) <;> cases s <;> rfl

theorem cooldownOf_congr (hcfg : c'.cfg = c.cfg) (s : Signal) : c'.cooldownOf s = c.cooldownOf s := by
  unfold cooldownOf
  rw [hcfg]

/-- A signal leaves the time of the last decrease of a kind and the rate alone, if it is of the kind,
or it is of the kind and comes after the cooldown. -/
theorem Sound.lastOf_handle (h : c.Sound) (s s' : Signal) (now count : UInt64)
    (hnow : c.lastOf s ≤ now) :
    (c.handle (.signal s' now count)).cooldownOf s = c.cooldownOf s ∧
      ((c.handle (.signal s' now count)).lastOf s = c.lastOf s ∧
          (s' = s → (c.handle (.signal s' now count)).currentRate = c.currentRate) ∨
        s' = s ∧ (c.handle (.signal s' now count)).lastOf s = now ∧
          (c.lastOf s ≠ 0 → (c.lastOf s).toNat + (c.cooldownOf s).toNat ≤ now.toNat)) := by
  obtain ⟨d, -, hcfg, hrate, hother, ⟨heq, hlast⟩ | ⟨heq, hlast, hcool⟩⟩ :=
    h.signal_cases s' now count
  · rw [heq]
    refine ⟨cooldownOf_congr hcfg s, Or.inl ⟨?_, fun _ => hrate⟩⟩
    by_cases hs : s = s'
    · rw [hs, hlast]
    · exact hother s hs
  · have hkept : (d.applyDecrease (d.gainOf s')).lastOf s = d.lastOf s := updateWindow_lastOf ..
    rw [heq, hkept]
    refine ⟨cooldownOf_congr ((applyDecrease_cfg ..).1.trans hcfg) s, ?_⟩
    by_cases hs : s' = s
    · subst hs
      refine Or.inr ⟨rfl, hlast, fun hne => ?_⟩
      have hspaced := UInt64.le_iff_toNat_le.mp (UInt64.not_lt.mp fun hlt => hcool ⟨hne, hnow, hlt⟩)
      rw [UInt64.toNat_sub_of_le _ _ hnow] at hspaced
      have hle := UInt64.le_iff_toNat_le.mp hnow
      omega
    · exact Or.inl ⟨hother s (Ne.symm hs), fun h => absurd h hs⟩

/-- Decreases of a kind are a cooldown apart, also from the one before. -/
theorem Sound.decreases_spaced (h : c.Sound) (s : Signal) {l : List Event}
    (hshort : ∀ e ∈ l, e.Short) (hsorted : (l.filterMap Event.time).Pairwise (· ≤ ·))
    (hpos : ∀ t ∈ l.filterMap Event.time, t ≠ 0)
    (hlast : ∀ t ∈ l.filterMap Event.time, c.lastOf s ≤ t) :
    (decreases s l c).Pairwise (fun t u => t.toNat + (c.cooldownOf s).toNat ≤ u.toNat) ∧
      ∀ t ∈ decreases s l c, c.lastOf s ≠ 0 →
        (c.lastOf s).toNat + (c.cooldownOf s).toNat ≤ t.toNat := by
  induction l generalizing c with
  | nil => simp [decreases]
  | cons e l ih =>
    have hsound := h.handle (hshort e List.mem_cons_self)
    have hshort' := fun e he => hshort e (List.mem_cons_of_mem _ he)
    cases e with
    | ack valid rtt retransmitted =>
      have hcool : (c.handle (.ack valid rtt retransmitted)).cooldownOf s = c.cooldownOf s :=
        cooldownOf_congr (onAck_rate valid rtt retransmitted c).1 s
      have hsame : (c.handle (.ack valid rtt retransmitted)).lastOf s = c.lastOf s :=
        onAck_lastOf s valid rtt retransmitted c
      have hrest := ih hsound hshort' hsorted hpos (by rw [hsame]; exact hlast)
      rw [hcool, hsame] at hrest
      exact hrest
    | signal s' now count =>
      simp only [List.filterMap_cons, Event.time, List.mem_cons, forall_eq_or_imp,
        List.pairwise_cons] at hsorted hpos hlast
      obtain ⟨hcool, hcase⟩ := h.lastOf_handle s s' now count hlast.1
      unfold decreases
      generalize c.handle (.signal s' now count) = c' at hsound hcool hcase ⊢
      have hnow := UInt64.le_iff_toNat_le.mp hlast.1
      rcases hcase with ⟨hsame, hrate⟩ | ⟨rfl, hlast', hspaced⟩
      · have hrest := ih hsound hshort' hsorted.2 hpos.2 (by rw [hsame]; exact hlast.2)
        rw [if_neg fun hdec => UInt64.ne_of_lt hdec.2 (hrate hdec.1)]
        rwa [hcool, hsame] at hrest
      · obtain ⟨hpair, hfirst⟩ := ih hsound hshort' hsorted.2 hpos.2 (by rw [hlast']; exact hsorted.1)
        rw [hcool] at hpair hfirst
        rw [hlast'] at hfirst
        have hafter : ∀ t ∈ decreases s' l c', now.toNat + (c.cooldownOf s').toNat ≤ t.toNat :=
          fun t ht => hfirst t ht hpos.1
        split_ifs
        · refine ⟨List.pairwise_cons.mpr ⟨hafter, hpair⟩, fun t ht hne => ?_⟩
          rcases List.mem_cons.mp ht with rfl | ht
          · exact hspaced hne
          · exact (Nat.add_le_add_right hnow _).trans (hafter t ht)
        · exact ⟨hpair, fun t ht _ => (Nat.add_le_add_right hnow _).trans (hafter t ht)⟩

theorem le_configuredMaxWindow
    (h : c.cfg.maxWindowBytes = 0 ∨ c.cfg.minWindowBytes ≤ c.cfg.maxWindowBytes) (m : UInt64) :
    c.cfg.minWindowBytes.toUInt64 ≤ c.configuredMaxWindow m := by
  unfold configuredMaxWindow
  rw [UInt64.le_iff_toNat_le]
  split_ifs with hzero
  · simpa using UInt32.le_iff_toNat_le.mp (h.resolve_left hzero)
  · rw [UInt64.toNat_max]
    exact le_max_left _ _

theorem sound_configure {cfg : CongestionControlConfig} {sendRate : UInt32}
    (hvalid : validateCongestionControlConfig cfg sendRate = .ok ()) (hen : cfg.enabled = true)
    (c : CongestionController) : (configure cfg sendRate c).Sound := by
  have hwindow : cfg.maxWindowBytes = 0 ∨ cfg.minWindowBytes ≤ cfg.maxWindowBytes := by
    simp only [validateCongestionControlConfig, hen, Bool.not_true, Bool.false_eq_true, if_false,
      Result.bind_eq_ok, reject_eq_ok, exists_and_left, exists_const, Bool.and_eq_false_iff,
      bne_eq_false_iff_eq, decide_eq_false_iff_not, UInt32.not_lt] at hvalid
    exact hvalid.2.2.2.2.2.1
  have hsmoothed : (100 : UInt64).toNat < 2 ^ 31 := by decide
  exact sound_updateWindow (regular_configure hvalid c) hen (le_configuredMaxWindow hwindow _) hsmoothed

theorem Sound.run (h : c.Sound) {l : List Event} (hshort : ∀ e ∈ l, e.Short) : (c.run l).Sound := by
  induction l generalizing c with
  | nil => exact h
  | cons e l ih =>
    exact ih (h.handle (hshort e List.mem_cons_self)) fun e he => hshort e (List.mem_cons_of_mem _ he)

/-- After any events at non-decreasing times the enabled controller of a validated configuration is
within its bounds, whatever comes next does not overflow and moves the rate in its direction, and
decreases of a kind were a cooldown apart. -/
theorem controller_bounds {cfg : CongestionControlConfig} {sendRate : UInt32}
    (hvalid : validateCongestionControlConfig cfg sendRate = .ok ()) (hen : cfg.enabled = true)
    (c : CongestionController) {l : List Event} (hshort : ∀ e ∈ l, e.Short)
    (hsorted : (l.filterMap Event.time).Pairwise (· ≤ ·))
    (hpos : ∀ t ∈ l.filterMap Event.time, t ≠ 0) :
    ((configure cfg sendRate c).run l).InBounds ∧
      (∀ e : Event, e.Short → ((configure cfg sendRate c).run l).Fits e ∧
        ((configure cfg sendRate c).run l).Directed e) ∧
      (decreases .loss l (configure cfg sendRate c)).Pairwise
        (fun t u => t.toNat + cfg.lossCooldownMs.toNat ≤ u.toNat) ∧
      (decreases .backpressure l (configure cfg sendRate c)).Pairwise
        (fun t u => t.toNat + cfg.backpressureCooldownMs.toNat ≤ u.toNat) := by
  have hstart := sound_configure hvalid hen c
  have hend := hstart.run hshort
  have hcfg : (configure cfg sendRate c).cfg = cfg := by simp [configure, resetRuntime]
  have hspaced : ∀ s, (decreases s l (configure cfg sendRate c)).Pairwise
      (fun t u => t.toNat + ((configure cfg sendRate c).cooldownOf s).toNat ≤ u.toNat) := by
    intro s
    refine (hstart.decreases_spaced s hshort hsorted hpos fun t _ => ?_).1
    have hzero : (configure cfg sendRate c).lastOf s = 0 := by
      simp only [configure, resetRuntime, updateWindow_lastOf]
      cases s <;> rfl
    rw [hzero]
    exact UInt64.zero_le
  refine ⟨hend.inBounds, fun e he => ⟨hend.fits he, hend.directed e⟩, ?_, ?_⟩
  · have hloss := hspaced .loss
    rwa [cooldownOf, hcfg] at hloss
  · have hback := hspaced .backpressure
    rwa [cooldownOf, hcfg] at hback

/-- Three losses, the second within the cooldown of the first, and an acknowledgement. -/
def lossyEvents : List Event :=
  [.signal .loss 1000 1, .signal .loss 1050 1, .ack true 40 false, .signal .loss 1100 2]

theorem lossy_controller_bounds :
    decreases .loss lossyEvents (configure { enabled := true } 1000000 {}) = [1000, 1100] ∧
      ((configure { enabled := true } 1000000 {}).run lossyEvents).InBounds :=
  ⟨by decide, (@controller_bounds { enabled := true } 1000000 (by decide) rfl {} lossyEvents
    (by simp [lossyEvents, Event.Short]) (by decide) (by simp [lossyEvents, Event.time])).1⟩

end CongestionController

end SecureCnet
