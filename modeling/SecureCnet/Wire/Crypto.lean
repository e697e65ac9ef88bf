import Mathlib.Data.Vector.Defs
import SecureCnet.Wire.ByteBuf

/-!
# Cryptographic primitives

The primitives come from libsodium and are parameters of the development: the
`Crypto` record lists them with a `none` for every documented failure. The
wrappers add the checks and the error texts of the library. What an ideal
primitive guarantees is stated in separate structures, used only where needed.
-/

namespace SecureCnet

/-- A byte array of fixed size. -/
abbrev Block (n : ℕ) := List.Vector UInt8 n

def Block.zero (n : ℕ) : Block n := List.Vector.replicate n 0

/-- The loopback addresses of both families. -/
def Block.loopback4 : Block 4 := ⟨[127, 0, 0, 1], rfl⟩

def Block.loopback6 : Block 16 := ⟨List.replicate 15 0 ++ [1], rfl⟩

instance {n : ℕ} : Repr (Block n) := ⟨fun b p => reprPrec b.toList p⟩

structure KeyPair where
  publicKey : Block 32
  secretKey : Block 32
  deriving DecidableEq, Repr

structure SessionKeys where
  rx : Block 32
  tx : Block 32
  deriving DecidableEq, Repr

def KeyPair.cleared : KeyPair := ⟨Block.zero 32, Block.zero 32⟩

namespace SessionKeys

def cleared : SessionKeys := ⟨Block.zero 32, Block.zero 32⟩

def empty (k : SessionKeys) : Bool := (k.rx.toList ++ k.tx.toList).all (· = 0)

def complement (k : SessionKeys) : SessionKeys := ⟨k.tx, k.rx⟩

@[simp] theorem complement_complement (k : SessionKeys) : k.complement.complement = k := rfl

theorem empty_cleared : cleared.empty = true := by decide

theorem empty_complement (k : SessionKeys) : k.complement.empty = k.empty := by
  simp [empty, complement, Bool.and_comm]

end SessionKeys

/-- The primitives of libsodium the library calls. -/
structure Crypto where
  aeadEncrypt : (key : Block 32) → (nonce : Block 24) → (aad plaintext : Bytes) → Option Bytes
  aeadDecrypt : (key : Block 32) → (nonce : Block 24) → (aad ciphertext : Bytes) → Option Bytes
  /-- The key pair generated from a seed. -/
  kxKeypair : (seed : Block 32) → KeyPair
  kxClient : (own : KeyPair) → (serverPublicKey : Block 32) → Option SessionKeys
  kxServer : (own : KeyPair) → (clientPublicKey : Block 32) → Option SessionKeys
  genericHash : (key : Block 32) → (data : Bytes) → Option (Block 16)

/-- Encryption succeeds, adds the tag, and decryption under the same inputs inverts it. -/
structure Crypto.IdealAead (C : Crypto) : Prop where
  encrypt : ∀ key nonce aad plaintext, ∃ c, C.aeadEncrypt key nonce aad plaintext = some c ∧
    c.length = plaintext.length + NetConfig.aeadTagBytes ∧
    C.aeadDecrypt key nonce aad c = some plaintext

/-- Primitives without secrecy that keep every promise made to honest users. -/
def Crypto.standIn : Crypto where
  aeadEncrypt _ _ _ plaintext := some (plaintext ++ List.replicate NetConfig.aeadTagBytes 0)
  aeadDecrypt _ _ _ ciphertext := some (ciphertext.take (ciphertext.length - NetConfig.aeadTagBytes))
  kxKeypair seed := ⟨seed, seed⟩
  kxClient own serverPublicKey := some ⟨serverPublicKey, own.publicKey⟩
  kxServer own clientPublicKey := some ⟨clientPublicKey, own.publicKey⟩
  genericHash key _ := some (key.take 16)

theorem Crypto.standIn_idealAead : Crypto.standIn.IdealAead where
  encrypt := by
    intro key nonce aad plaintext
    refine ⟨plaintext ++ List.replicate NetConfig.aeadTagBytes 0, rfl, by simp, ?_⟩
    simp [standIn]

def cryptoMakePacketNonce (connId seq : UInt64) : Block 24 :=
  ⟨List.replicate 8 0 ++ (be64 connId ++ be64 seq), by simp⟩

theorem cryptoMakePacketNonce_inj {c c' s s' : UInt64}
    (h : cryptoMakePacketNonce c s = cryptoMakePacketNonce c' s') : c = c' ∧ s = s' := by
  have hl : List.replicate 8 0 ++ (be64 c ++ be64 s) = List.replicate 8 0 ++ (be64 c' ++ be64 s') :=
    congrArg Subtype.val h
  have hcs := List.append_cancel_left hl
  obtain ⟨hc, hs⟩ := List.append_inj hcs (by simp)
  exact ⟨be64_inj hc, be64_inj hs⟩

variable (C : Crypto)

def cryptoAeadEncrypt (key : Block 32) (nonce : Block 24) (aad plaintext : Bytes) (outCap : ℕ) :
    Result Bytes :=
  if outCap < plaintext.length + NetConfig.aeadTagBytes then
    fail .truncated "ciphertext buffer too small"
  else
    match C.aeadEncrypt key nonce aad plaintext with
    | none => fail .internal "AEAD encrypt failed"
    | some c => .ok c

def cryptoAeadDecrypt (key : Block 32) (nonce : Block 24) (aad ciphertext : Bytes) (outCap : ℕ) :
    Result Bytes :=
  if ciphertext.length < NetConfig.aeadTagBytes then fail .badPacket "ciphertext too short"
  else if outCap < ciphertext.length - NetConfig.aeadTagBytes then
    fail .truncated "plaintext buffer too small"
  else
    match C.aeadDecrypt key nonce aad ciphertext with
    | none => fail .authFailed "AEAD decrypt failed"
    | some p => .ok p

def cryptoDeriveClientSessionKeys (own : KeyPair) (serverPublicKey : Block 32) :
    Result SessionKeys :=
  match C.kxClient own serverPublicKey with
  | none => fail .authFailed "client session key derivation failed"
  | some k => .ok k

def cryptoDeriveServerSessionKeys (own : KeyPair) (clientPublicKey : Block 32) :
    Result SessionKeys :=
  match C.kxServer own clientPublicKey with
  | none => fail .authFailed "server session key derivation failed"
  | some k => .ok k

def cryptoKeyedHash (key : Block 32) (data : Bytes) : Result (Block 16) :=
  match C.genericHash key data with
  | none => fail .internal "keyed hash failed"
  | some m => .ok m

end SecureCnet
