import SecureCnet.Delivery.ReliableSession

/-!
# Congestion control and send budgets

The rate controller and the token bucket it feeds. A disabled controller runs at
the configured rate.
-/

namespace SecureCnet

structure CongestionController where
  cfg : CongestionControlConfig := {}
  configuredSendRate : UInt64 := 1
  currentRate : UInt64 := 1
  currentWindow : UInt64 := 1300 * 4
  latestRttMs : UInt64 := 0
  smoothedRttMs : UInt64 := 100
  lastLossMs : UInt64 := 0
  lastBackpressureMs : UInt64 := 0
  ackEvents : UInt64 := 0
  lossEvents : UInt64 := 0
  backpressureEvents : UInt64 := 0
  deriving DecidableEq, Repr

namespace CongestionController

def rateBytesPerSecond (c : CongestionController) : UInt64 :=
  if c.cfg.enabled then c.currentRate else c.configuredSendRate

def bucketCapBytes (c : CongestionController) : UInt64 :=
  max (UInt64.ofNat NetConfig.maxPacketBytes) (c.rateBytesPerSecond * 2)

def configuredMaxRate (c : CongestionController) : UInt64 :=
  if !c.cfg.enabled then c.configuredSendRate
  else if c.cfg.maxRateBytesPerSecond = 0 then c.configuredSendRate
  else c.cfg.maxRateBytesPerSecond.toUInt64

def configuredMinRate (maxRate : UInt64) (c : CongestionController) : UInt64 :=
  if !c.cfg.enabled then c.configuredSendRate
  else min (max 1 c.cfg.minRateBytesPerSecond.toUInt64) maxRate

def configuredMaxWindow (maxRate : UInt64) (c : CongestionController) : UInt64 :=
  if c.cfg.maxWindowBytes ≠ 0 then c.cfg.maxWindowBytes.toUInt64
  else max c.cfg.minWindowBytes.toUInt64 (maxRate * 2)

def updateWindow (c : CongestionController) : CongestionController :=
  if !c.cfg.enabled then { c with currentWindow := c.bucketCapBytes }
  else
    let rttMs := max 25 (if c.smoothedRttMs = 0 then 100 else c.smoothedRttMs)
    let product := max (UInt64.ofNat NetConfig.maxPacketBytes) (c.currentRate * rttMs / 1000)
    { c with currentWindow :=
        clampU64 product c.cfg.minWindowBytes.toUInt64 (c.configuredMaxWindow c.configuredMaxRate) }

def resetRuntime (c : CongestionController) : CongestionController :=
  let maxRate := c.configuredMaxRate
  let minRate := c.configuredMinRate maxRate
  let initialRate := if c.cfg.initialRateBytesPerSecond ≠ 0
    then c.cfg.initialRateBytesPerSecond.toUInt64 else max minRate (maxRate / 2)
  updateWindow { c with
    currentRate := if c.cfg.enabled then clampU64 initialRate minRate maxRate
      else c.configuredSendRate
    smoothedRttMs := 100, latestRttMs := 0, lastLossMs := 0, lastBackpressureMs := 0
    ackEvents := 0, lossEvents := 0, backpressureEvents := 0 }

def configure (cfg : CongestionControlConfig) (sendRate : UInt32) (c : CongestionController) :
    CongestionController :=
  resetRuntime { c with cfg, configuredSendRate := max 1 sendRate.toUInt64 }

def applyDecrease (perMille : UInt32) (c : CongestionController) : CongestionController :=
  let maxRate := c.configuredMaxRate
  let minRate := c.configuredMinRate maxRate
  let decreased := c.currentRate * perMille.toUInt64 / 1000
  updateWindow { c with currentRate := clampU64 (max 1 decreased) minRate maxRate }

def onAck (rttSampleValid : Bool) (rttSampleMs : UInt64) (retransmitted : Bool)
    (c : CongestionController) : CongestionController :=
  if !c.cfg.enabled then c
  else
    let c := { c with ackEvents := c.ackEvents + 1 }
    let c := if rttSampleValid && 0 < rttSampleMs then
        { c with
          latestRttMs := rttSampleMs
          smoothedRttMs := if c.smoothedRttMs = 0 then rttSampleMs
            else (c.smoothedRttMs * 7 + rttSampleMs) / 8 }
      else c
    if retransmitted then c
    else
      let increase := max 1 c.cfg.additiveIncreaseBytesPerAck.toUInt64
      updateWindow { c with currentRate := min c.configuredMaxRate (c.currentRate + increase) }

def onLoss (nowMs count : UInt64) (c : CongestionController) : CongestionController :=
  if !c.cfg.enabled || count = 0 then c
  else
    let c := { c with lossEvents := c.lossEvents + count }
    if c.lastLossMs ≠ 0 ∧ c.lastLossMs ≤ nowMs ∧ nowMs - c.lastLossMs < c.cfg.lossCooldownMs then c
    else applyDecrease c.cfg.multiplicativeDecreasePerMille { c with lastLossMs := nowMs }

def onBackpressure (nowMs : UInt64) (c : CongestionController) : CongestionController :=
  if !c.cfg.enabled then c
  else
    let c := { c with backpressureEvents := c.backpressureEvents + 1 }
    if c.lastBackpressureMs ≠ 0 ∧ c.lastBackpressureMs ≤ nowMs ∧
        nowMs - c.lastBackpressureMs < c.cfg.backpressureCooldownMs then c
    else applyDecrease c.cfg.backpressureDecreasePerMille { c with lastBackpressureMs := nowMs }

end CongestionController

/-- The token bucket in front of the socket. -/
structure SendBudget where
  congestion : CongestionController := {}
  sendBudgetBytes : UInt64 := 0
  lastBudgetRefillMs : UInt64 := 0
  deriving DecidableEq, Repr

namespace SendBudget

def refillSendBudget (nowMs : UInt64) (b : SendBudget) : SendBudget :=
  if b.lastBudgetRefillMs = 0 then
    { b with
      lastBudgetRefillMs := nowMs
      sendBudgetBytes := if b.sendBudgetBytes = 0 then b.congestion.rateBytesPerSecond
        else b.sendBudgetBytes }
  else if nowMs ≤ b.lastBudgetRefillMs then b
  else
    let elapsedMs := nowMs - b.lastBudgetRefillMs
    let refill := b.congestion.rateBytesPerSecond * elapsedMs / 1000
    if 0 < refill then
      { b with
        sendBudgetBytes := min b.congestion.bucketCapBytes (b.sendBudgetBytes + refill)
        lastBudgetRefillMs := nowMs }
    else b

/-- Cut the budget down to the bucket's size after a rate change. -/
def trim (b : SendBudget) : SendBudget :=
  { b with sendBudgetBytes := min b.sendBudgetBytes b.congestion.bucketCapBytes }

def onAck (ack : ReliableAckEvent) (b : SendBudget) : SendBudget :=
  { b with
    congestion := b.congestion.onAck ack.rttSampleValid ack.rttSampleMs ack.retransmitted }

def onBackpressure (nowMs : UInt64) (b : SendBudget) : SendBudget :=
  trim { b with congestion := b.congestion.onBackpressure nowMs }

def onLoss (nowMs losses : UInt64) (b : SendBudget) : SendBudget :=
  trim { b with congestion := b.congestion.onLoss nowMs losses }

def spend (len : ℕ) (b : SendBudget) : SendBudget :=
  { b with sendBudgetBytes := b.sendBudgetBytes - UInt64.ofNat len }

end SendBudget

end SecureCnet
