import Mathlib.Tactic

/-!
# Error codes, limits and configuration

`Result` carries an error code and the text the library returns with it. The
`NetConfig` limits are plain numbers; the configuration records keep the machine
widths of their fields, since the validators compare them at those widths.
-/

namespace SecureCnet

abbrev Bytes := List UInt8

/-- Every code of the library except `Ok`, which is the success of `Result`. -/
inductive Errc
  | invalidArg | socketError | resolveError | wouldBlock | truncated | badPacket | internal
  | endOfStream | queueFull | unsupportedVersion | authFailed | timeout | closed | stateError
  | replay | protocolError | tooLarge | rateLimited | backpressure
  deriving DecidableEq, Repr

structure Failure where
  code : Errc
  msg : String
  deriving DecidableEq, Repr

abbrev Result (α : Type) := Except Failure α

def fail {α : Type} (code : Errc) (msg : String) : Result α := .error ⟨code, msg⟩

instance {α : Type} [DecidableEq α] : DecidableEq (Result α)
  | .ok a, .ok b => decidable_of_iff (a = b) (by simp)
  | .error a, .error b => decidable_of_iff (a = b) (by simp)
  | .ok _, .error _ => .isFalse (by simp)
  | .error _, .ok _ => .isFalse (by simp)

namespace Result

variable {α β : Type}

@[simp] theorem ok_bind (a : α) (f : α → Result β) : ((.ok a : Result α) >>= f) = f a := rfl

@[simp] theorem error_bind (e : Failure) (f : α → Result β) :
    ((.error e : Result α) >>= f) = .error e := rfl

@[simp] theorem pure_eq (a : α) : (pure a : Result α) = .ok a := rfl

@[simp] theorem fail_bind (code : Errc) (msg : String) (f : α → Result β) :
    ((fail code msg : Result α) >>= f) = fail code msg := rfl

@[simp] theorem fail_ne_ok (code : Errc) (msg : String) (a : α) :
    (fail code msg : Result α) ≠ .ok a := by simp [fail]

theorem bind_eq_ok {x : Result α} {f : α → Result β} {b : β} :
    (x >>= f) = .ok b ↔ ∃ a, x = .ok a ∧ f a = .ok b := by
  cases x with
  | ok a => simp
  | error e => simp

theorem guard_eq_ok {p : Prop} [Decidable p] {code : Errc} {msg : String} {x : Result α} {a : α} :
    (if p then fail code msg else x) = .ok a ↔ ¬p ∧ x = .ok a := by
  split_ifs with h <;> simp [h]

end Result

inductive SendPriority
  | low | normal | high
  deriving DecidableEq, Repr

def SendPriority.rank : SendPriority → ℕ
  | .low => 0
  | .normal => 1
  | .high => 2

namespace NetConfig

def maxPacketBytes : ℕ := 1300
def packetHeaderBytes : ℕ := 28
def maxPayloadBytes : ℕ := maxPacketBytes - packetHeaderBytes
def aeadTagBytes : ℕ := 16
def messageHeaderBytes : ℕ := 4
def maxEncryptedPlaintextBytes : ℕ := maxPayloadBytes - aeadTagBytes
def maxMessageBytes : ℕ := maxEncryptedPlaintextBytes - messageHeaderBytes
def reliableEnvelopeBytes : ℕ := 8
def orderedEnvelopeBytes : ℕ := 8
def sequencedEnvelopeBytes : ℕ := 8
def maxReliableMessageBytes : ℕ := maxMessageBytes - reliableEnvelopeBytes
def maxOrderedMessageBytes : ℕ := maxReliableMessageBytes - orderedEnvelopeBytes
def maxSequencedMessageBytes : ℕ := maxMessageBytes - sequencedEnvelopeBytes
def fragmentHeaderBytes : ℕ := 24
def maxFragmentDataBytes : ℕ := maxOrderedMessageBytes - fragmentHeaderBytes
def retryTokenLifetimeMs : UInt64 := 1500
def resumptionTokenLifetimeMs : UInt64 := 60000
def protocolVersion : UInt16 := 3
def magic : UInt32 := 0x53434E33

@[simp] theorem maxPacketBytes_eq : maxPacketBytes = 1300 := rfl
@[simp] theorem packetHeaderBytes_eq : packetHeaderBytes = 28 := rfl
@[simp] theorem maxPayloadBytes_eq : maxPayloadBytes = 1272 := rfl
@[simp] theorem aeadTagBytes_eq : aeadTagBytes = 16 := rfl
@[simp] theorem messageHeaderBytes_eq : messageHeaderBytes = 4 := rfl
@[simp] theorem maxEncryptedPlaintextBytes_eq : maxEncryptedPlaintextBytes = 1256 := rfl
@[simp] theorem maxMessageBytes_eq : maxMessageBytes = 1252 := rfl
@[simp] theorem reliableEnvelopeBytes_eq : reliableEnvelopeBytes = 8 := rfl
@[simp] theorem maxReliableMessageBytes_eq : maxReliableMessageBytes = 1244 := rfl
@[simp] theorem maxOrderedMessageBytes_eq : maxOrderedMessageBytes = 1236 := rfl
@[simp] theorem maxSequencedMessageBytes_eq : maxSequencedMessageBytes = 1244 := rfl
@[simp] theorem fragmentHeaderBytes_eq : fragmentHeaderBytes = 24 := rfl
@[simp] theorem maxFragmentDataBytes_eq : maxFragmentDataBytes = 1212 := rfl

end NetConfig

structure ReliabilityConfig where
  initialRtoMs : UInt64 := 120
  minRtoMs : UInt64 := 40
  maxRtoMs : UInt64 := 2000
  maxPendingMessages : UInt32 := 256
  maxPendingBytes : UInt32 := 64 * 1024
  maxInflightMessages : UInt32 := 32
  orderedReceiveWindow : UInt32 := 64
  deriving DecidableEq, Repr

structure FragmentationConfig where
  enabled : Bool := true
  maxFragmentsPerMessage : UInt16 := 64
  maxReassembledMessageBytes : UInt32 := 16 * 1024
  maxConcurrentReassembliesPerPeer : UInt32 := 32
  maxTotalReassemblyMemoryPerPeer : UInt64 := 128 * 1024
  reassemblyTimeoutMs : UInt64 := 1500
  deriving DecidableEq, Repr

structure CongestionControlConfig where
  enabled : Bool := false
  minRateBytesPerSecond : UInt32 := 32 * 1024
  /-- Zero stands for half of the send budget, clamped. -/
  initialRateBytesPerSecond : UInt32 := 0
  /-- Zero stands for the send budget. -/
  maxRateBytesPerSecond : UInt32 := 0
  additiveIncreaseBytesPerAck : UInt32 := 1300
  multiplicativeDecreasePerMille : UInt32 := 700
  backpressureDecreasePerMille : UInt32 := 850
  minWindowBytes : UInt32 := 1300 * 4
  /-- Zero stands for two seconds of the maximum rate. -/
  maxWindowBytes : UInt32 := 0
  lossCooldownMs : UInt64 := 100
  backpressureCooldownMs : UInt64 := 250
  deriving DecidableEq, Repr

structure AbuseConfig where
  perIpHandshakeRateLimitPerSecond : UInt32 := 64
  invalidPacketBanThreshold : UInt32 := 16
  invalidPacketBanMs : UInt64 := 5000
  maxSessionsPerIp : UInt32 := 64
  antiAmplificationFactor : UInt32 := 3
  antiAmplificationSlackBytes : UInt32 := 256
  maxQueuedReliableBytesPerPeer : UInt32 := 64 * 1024
  maxTotalReassemblyMemoryServer : UInt64 := 4 * 1024 * 1024
  deriving DecidableEq, Repr

structure ClientConfig where
  reliability : ReliabilityConfig := {}
  fragmentation : FragmentationConfig := {}
  congestion : CongestionControlConfig := {}
  handshakeTimeoutMs : UInt64 := 5000
  idleTimeoutMs : UInt64 := 15000
  keepaliveIntervalMs : UInt64 := 5000
  closeDrainMs : UInt64 := 250
  maxPendingPackets : UInt32 := 256
  sendBudgetBytesPerSecond : UInt32 := 128 * 1024
  enableSessionResumption : Bool := true
  deriving DecidableEq, Repr

structure ServerConfig where
  reliability : ReliabilityConfig := {}
  fragmentation : FragmentationConfig := {}
  congestion : CongestionControlConfig := {}
  abuse : AbuseConfig := {}
  handshakeTimeoutMs : UInt64 := 5000
  idleTimeoutMs : UInt64 := 15000
  keepaliveIntervalMs : UInt64 := 5000
  closeDrainMs : UInt64 := 250
  maxPendingPackets : UInt32 := 256
  sendBudgetBytesPerSecond : UInt32 := 256 * 1024
  maxPeerSessions : UInt64 := 1024
  enableSessionResumption : Bool := true
  deriving DecidableEq, Repr

/-- One rejected condition of a validator. -/
def reject (bad : Bool) (msg : String) : Result Unit :=
  if bad then fail .invalidArg msg else .ok ()

theorem reject_eq_ok {bad : Bool} {msg : String} {u : Unit} :
    reject bad msg = .ok u ↔ bad = false := by
  cases bad <;> simp [reject, fail]

def validateReliabilityConfig (cfg : ReliabilityConfig) : Result Unit := do
  reject (cfg.initialRtoMs = 0 || cfg.minRtoMs = 0 || cfg.maxRtoMs = 0)
    "reliability timeout values must be non-zero"
  reject (cfg.initialRtoMs < cfg.minRtoMs || cfg.maxRtoMs < cfg.initialRtoMs)
    "reliability timeout values are inconsistent"
  reject (cfg.maxPendingMessages = 0 || cfg.maxInflightMessages = 0)
    "reliability queue limits must be non-zero"
  reject (cfg.maxPendingBytes.toNat < NetConfig.maxReliableMessageBytes)
    "reliability byte budget is too small"
  reject (cfg.orderedReceiveWindow = 0) "ordered receive window must be non-zero"

def validateFragmentationConfig (cfg : FragmentationConfig) : Result Unit :=
  if !cfg.enabled then .ok () else do
    reject (cfg.maxFragmentsPerMessage = 0) "fragment count limit must be non-zero"
    reject (cfg.maxReassembledMessageBytes = 0 || 0xFFFF < cfg.maxReassembledMessageBytes)
      "reassembled message size must fit in wire format"
    let requiredFragments :=
      (cfg.maxReassembledMessageBytes.toNat + NetConfig.maxFragmentDataBytes - 1) /
        NetConfig.maxFragmentDataBytes
    reject (cfg.maxFragmentsPerMessage.toNat < requiredFragments)
      "fragment count limit is too small for max_reassembled_message_bytes"
    reject (cfg.maxConcurrentReassembliesPerPeer = 0)
      "concurrent reassembly limit must be non-zero"
    reject (cfg.maxTotalReassemblyMemoryPerPeer < cfg.maxReassembledMessageBytes.toUInt64)
      "reassembly memory budget must hold at least one message"
    reject (cfg.reassemblyTimeoutMs = 0) "reassembly timeout must be non-zero"

def validateCongestionControlConfig (cfg : CongestionControlConfig)
    (sendBudgetBytesPerSecond : UInt32) : Result Unit :=
  if !cfg.enabled then .ok () else do
    reject (sendBudgetBytesPerSecond = 0) "send budget must be non-zero for congestion control"
    let maxRate := if cfg.maxRateBytesPerSecond = 0 then sendBudgetBytesPerSecond
      else cfg.maxRateBytesPerSecond
    reject (cfg.minRateBytesPerSecond = 0 || maxRate = 0 || maxRate < cfg.minRateBytesPerSecond)
      "congestion rate bounds are invalid"
    reject (cfg.initialRateBytesPerSecond != 0 &&
        (cfg.initialRateBytesPerSecond < cfg.minRateBytesPerSecond ||
          maxRate < cfg.initialRateBytesPerSecond))
      "initial congestion rate is outside configured bounds"
    reject (cfg.additiveIncreaseBytesPerAck = 0 ||
        cfg.multiplicativeDecreasePerMille = 0 || 1000 < cfg.multiplicativeDecreasePerMille ||
        cfg.backpressureDecreasePerMille = 0 || 1000 < cfg.backpressureDecreasePerMille)
      "congestion control gain values are invalid"
    reject (cfg.minWindowBytes.toNat < NetConfig.maxPacketBytes)
      "congestion window must hold at least one packet"
    reject (cfg.maxWindowBytes != 0 && cfg.maxWindowBytes < cfg.minWindowBytes)
      "congestion window bounds are invalid"
    reject (cfg.lossCooldownMs = 0 || cfg.backpressureCooldownMs = 0)
      "congestion cooldowns must be non-zero"

def validateClientConfig (cfg : ClientConfig) : Result Unit := do
  validateReliabilityConfig cfg.reliability
  validateFragmentationConfig cfg.fragmentation
  validateCongestionControlConfig cfg.congestion cfg.sendBudgetBytesPerSecond
  reject (cfg.handshakeTimeoutMs = 0 || cfg.idleTimeoutMs = 0 || cfg.closeDrainMs = 0)
    "client timeout values must be non-zero"
  reject (cfg.keepaliveIntervalMs = 0 || cfg.idleTimeoutMs ≤ cfg.keepaliveIntervalMs)
    "client keepalive must be non-zero and less than idle timeout"
  reject (cfg.maxPendingPackets = 0) "client pending packet limit must be non-zero"
  reject (cfg.sendBudgetBytesPerSecond = 0) "client send budget must be non-zero"

def validateServerConfig (cfg : ServerConfig) : Result Unit := do
  validateReliabilityConfig cfg.reliability
  validateFragmentationConfig cfg.fragmentation
  validateCongestionControlConfig cfg.congestion cfg.sendBudgetBytesPerSecond
  reject (cfg.handshakeTimeoutMs = 0 || cfg.idleTimeoutMs = 0 || cfg.closeDrainMs = 0)
    "server timeout values must be non-zero"
  reject (cfg.keepaliveIntervalMs = 0 || cfg.idleTimeoutMs ≤ cfg.keepaliveIntervalMs)
    "server keepalive must be non-zero and less than idle timeout"
  reject (cfg.maxPendingPackets = 0 || cfg.maxPeerSessions = 0)
    "server queue/session limits must be non-zero"
  reject (cfg.sendBudgetBytesPerSecond = 0) "server send budget must be non-zero"
  reject (cfg.abuse.perIpHandshakeRateLimitPerSecond = 0 || cfg.abuse.maxSessionsPerIp = 0 ||
      cfg.abuse.antiAmplificationFactor = 0 || cfg.abuse.maxQueuedReliableBytesPerPeer = 0 ||
      cfg.abuse.maxTotalReassemblyMemoryServer = 0)
    "server abuse limits must be non-zero"
  reject (cfg.abuse.maxQueuedReliableBytesPerPeer < cfg.reliability.maxPendingBytes)
    "server reliable byte quota must cover reliability.max_pending_bytes"
  reject (cfg.abuse.maxTotalReassemblyMemoryServer <
      cfg.fragmentation.maxTotalReassemblyMemoryPerPeer)
    "server reassembly memory budget must cover one peer budget"

theorem validateClientConfig_default : validateClientConfig {} = .ok () := by decide

theorem validateServerConfig_default : validateServerConfig {} = .ok () := by decide

end SecureCnet
