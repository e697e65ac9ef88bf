import SecureCnet.Wire.Crypto

/-!
# Handshake and close messages

The hello, retry and close bodies and the transcript both sides authenticate.
A token behind a presence flag is an `Option`: the source keeps the flag and a
token that is default when the flag is off.
-/

namespace SecureCnet

open ByteReader

inductive ConnectionState
  | idle | handshaking | established | closing | closed
  deriving DecidableEq, Repr

inductive HandshakeType
  | clientHello | retry | serverHello
  deriving DecidableEq, Repr

def HandshakeType.code : HandshakeType → UInt8
  | .clientHello => 1
  | .retry => 2
  | .serverHello => 3

inductive CloseReason
  | normal | idleTimeout | establishTimeout | unsupportedVersion | authenticationFailed
  | replayDetected | protocolError | invalidPacket | unknownConnection | cookieExpired
  | stateViolation | internalError | rateLimited | backpressure
  deriving DecidableEq, Repr

namespace CloseReason

def code : CloseReason → UInt16
  | normal => 0
  | idleTimeout => 1
  | establishTimeout => 2
  | unsupportedVersion => 3
  | authenticationFailed => 4
  | replayDetected => 5
  | protocolError => 6
  | invalidPacket => 7
  | unknownConnection => 8
  | cookieExpired => 9
  | stateViolation => 10
  | internalError => 11
  | rateLimited => 12
  | backpressure => 13

def all : List CloseReason :=
  [normal, idleTimeout, establishTimeout, unsupportedVersion, authenticationFailed,
    replayDetected, protocolError, invalidPacket, unknownConnection, cookieExpired,
    stateViolation, internalError, rateLimited, backpressure]

def ofCode (c : UInt16) : Option CloseReason := all.find? fun r => r.code = c

@[simp] theorem ofCode_code (r : CloseReason) : ofCode r.code = some r := by
  cases r <;> rfl

theorem ofCode_eq_some {c : UInt16} {r : CloseReason} : ofCode c = some r ↔ c = r.code := by
  constructor
  · intro h
    have := List.find?_some h
    simp only [decide_eq_true_eq] at this
    exact this.symm
  · intro h
    rw [h]
    exact ofCode_code r

end CloseReason

structure RetryToken where
  issuedAtMs : UInt64
  mac : Block 16
  deriving DecidableEq, Repr

structure ResumptionToken where
  issuedAtMs : UInt64
  expiresAtMs : UInt64
  ticketId : UInt64
  mac : Block 16
  deriving DecidableEq, Repr

structure ClientHello where
  clientPublicKey : Block 32
  clientNonce : Block 16
  retryToken : Option RetryToken
  resumptionToken : Option ResumptionToken
  deriving DecidableEq, Repr

structure ServerHello where
  serverConnId : UInt64
  serverPublicKey : Block 32
  serverNonce : Block 16
  transcriptMac : Block 16
  resumptionToken : Option ResumptionToken
  deriving DecidableEq, Repr

def writeBlock {n : ℕ} (w : ByteWriter) (b : Block n) : Result ByteWriter := w.writeBytes b.toList

def readBlock (n : ℕ) (r : Bytes) : Result (Block n × Bytes) :=
  if h : n ≤ r.length then .ok (⟨r.take n, by simp [h]⟩, r.drop n)
  else fail .truncated "ByteReader underrun"

/-- A presence flag followed by the value when it is present. -/
def writeOptional {α : Type} (write : ByteWriter → α → Result ByteWriter) (w : ByteWriter) :
    Option α → Result ByteWriter
  | none => w.writeU8 0
  | some a => do
    let w ← w.writeU8 1
    write w a

def readOptional {α : Type} (flagMsg : String) (read : Bytes → Result (α × Bytes)) (r : Bytes) :
    Result (Option α × Bytes) := do
  let (flag, r) ← readU8 r
  if 1 < flag then fail .badPacket flagMsg
  else if flag = 0 then return (none, r)
  else do
    let (a, r) ← read r
    return (some a, r)

def writeRetryToken (w : ByteWriter) (token : RetryToken) : Result ByteWriter := do
  let w ← w.writeU64 token.issuedAtMs
  writeBlock w token.mac

def readRetryToken (r : Bytes) : Result (RetryToken × Bytes) := do
  let (issuedAtMs, r) ← readU64 r
  let (mac, r) ← readBlock 16 r
  return (⟨issuedAtMs, mac⟩, r)

def writeResumptionToken (w : ByteWriter) (token : ResumptionToken) : Result ByteWriter := do
  let w ← w.writeU64 token.issuedAtMs
  let w ← w.writeU64 token.expiresAtMs
  let w ← w.writeU64 token.ticketId
  writeBlock w token.mac

def readResumptionToken (r : Bytes) : Result (ResumptionToken × Bytes) := do
  let (issuedAtMs, r) ← readU64 r
  let (expiresAtMs, r) ← readU64 r
  let (ticketId, r) ← readU64 r
  let (mac, r) ← readBlock 16 r
  if ticketId = 0 ∨ expiresAtMs ≤ issuedAtMs then fail .badPacket "invalid resumption token"
  else return (⟨issuedAtMs, expiresAtMs, ticketId, mac⟩, r)

def writeClientHello (w : ByteWriter) (hello : ClientHello) : Result ByteWriter := do
  let w ← w.writeU8 HandshakeType.clientHello.code
  let w ← writeBlock w hello.clientPublicKey
  let w ← writeBlock w hello.clientNonce
  let w ← writeOptional writeRetryToken w hello.retryToken
  writeOptional writeResumptionToken w hello.resumptionToken

def readClientHello (r : Bytes) : Result ClientHello := do
  let (type, r) ← readU8 r
  if type ≠ HandshakeType.clientHello.code then fail .badPacket "expected client hello"
  else do
    let (clientPublicKey, r) ← readBlock 32 r
    let (clientNonce, r) ← readBlock 16 r
    let (retryToken, r) ← readOptional "invalid retry token flag" readRetryToken r
    let (resumptionToken, r) ←
      readOptional "invalid resumption token flag" readResumptionToken r
    if r.length ≠ 0 then fail .badPacket "extra bytes in client hello"
    else return ⟨clientPublicKey, clientNonce, retryToken, resumptionToken⟩

def writeRetry (w : ByteWriter) (token : RetryToken) : Result ByteWriter := do
  let w ← w.writeU8 HandshakeType.retry.code
  writeRetryToken w token

def readRetry (r : Bytes) : Result RetryToken := do
  let (type, r) ← readU8 r
  if type ≠ HandshakeType.retry.code then fail .badPacket "expected retry"
  else do
    let (token, r) ← readRetryToken r
    if r.length ≠ 0 then fail .badPacket "extra bytes in retry"
    else return token

def writeServerHello (w : ByteWriter) (hello : ServerHello) : Result ByteWriter := do
  let w ← w.writeU8 HandshakeType.serverHello.code
  let w ← w.writeU64 hello.serverConnId
  let w ← writeBlock w hello.serverPublicKey
  let w ← writeBlock w hello.serverNonce
  let w ← writeBlock w hello.transcriptMac
  writeOptional writeResumptionToken w hello.resumptionToken

def readServerHello (r : Bytes) : Result ServerHello := do
  let (type, r) ← readU8 r
  if type ≠ HandshakeType.serverHello.code then fail .badPacket "expected server hello"
  else do
    let (serverConnId, r) ← readU64 r
    let (serverPublicKey, r) ← readBlock 32 r
    let (serverNonce, r) ← readBlock 16 r
    let (transcriptMac, r) ← readBlock 16 r
    let (resumptionToken, r) ←
      readOptional "invalid server hello resumption flag" readResumptionToken r
    if serverConnId = 0 then fail .badPacket "server hello missing conn id"
    else if r.length ≠ 0 then fail .badPacket "extra bytes in server hello"
    else return ⟨serverConnId, serverPublicKey, serverNonce, transcriptMac, resumptionToken⟩

def writeCloseFrame (w : ByteWriter) (reason : CloseReason) : Result ByteWriter :=
  w.writeU16 reason.code

/-- The payload of an empty packet is a null pointer, which the reader refuses for itself. -/
def readCloseFrame (r : Bytes) : Result CloseReason :=
  if r = [] then fail .invalidArg "ByteReader source is null"
  else do
    let (rawReason, r) ← readU16 r
    if r.length ≠ 0 then fail .badPacket "extra bytes in close frame"
    else
      match CloseReason.ofCode rawReason with
      | none => fail .badPacket "invalid close reason"
      | some reason => .ok reason

/-- The bytes the transcript MAC covers; both sides build the same function. -/
def buildTranscriptMacInput (hello : ClientHello) (serverHello : ServerHello) (outCap : ℕ) :
    Result Bytes := do
  let w ← ByteWriter.writeU16 ⟨outCap, []⟩ NetConfig.protocolVersion
  let w ← writeBlock w hello.clientPublicKey
  let w ← writeBlock w hello.clientNonce
  let w ← writeOptional writeRetryToken w hello.retryToken
  let w ← writeOptional writeResumptionToken w hello.resumptionToken
  let w ← w.writeU64 serverHello.serverConnId
  let w ← writeBlock w serverHello.serverPublicKey
  let w ← writeBlock w serverHello.serverNonce
  let w ← writeOptional writeResumptionToken w serverHello.resumptionToken
  return w.out

end SecureCnet
