import SecureCnet.Session.Receive
import SecureCnet.Wire.HandshakeCodec

/-!
# Which errors a function returns

A client ends its connection over some error codes and ignores others, so what a
packet leads to depends on the codes the functions on its way can return.
-/

namespace SecureCnet

open ByteReader

namespace Result

variable {α β : Type} {S T : Errc → Prop}

def FailsWith (S : Errc → Prop) (x : Result α) : Prop := ∀ e, x = .error e → S e.code

theorem failsWith_ok (a : α) : FailsWith S (.ok a : Result α) := fun e h => by cases h

theorem failsWith_fail {code : Errc} (h : S code) (msg : String) :
    FailsWith S (fail code msg : Result α) := fun e he => by cases he; exact h

theorem FailsWith.bind {x : Result α} {f : α → Result β} (hx : FailsWith S x)
    (hf : ∀ a, FailsWith S (f a)) : FailsWith S (x >>= f) := by
  cases x with
  | ok a => exact hf a
  | error e => exact fun e' he => hx e' (by cases he; rfl)

theorem FailsWith.guard {p : Prop} [Decidable p] {code : Errc} {msg : String} {x : Result α}
    (h : S code) (hx : FailsWith S x) : FailsWith S (if p then fail code msg else x) := by
  split_ifs
  · exact failsWith_fail h msg
  · exact hx

end Result

open Result

/-! ### Malformed messages -/

def Errc.Malformed (code : Errc) : Prop := code = .truncated ∨ code = .badPacket

theorem malformed_truncated : Errc.Malformed .truncated := Or.inl rfl

theorem malformed_badPacket : Errc.Malformed .badPacket := Or.inr rfl

theorem readWord_malformed (k : ℕ) (r : Bytes) : FailsWith Errc.Malformed (readWord k r) := by
  refine FailsWith.bind ?_ fun _ => failsWith_ok _
  unfold readBytes
  split_ifs
  · exact failsWith_ok _
  · exact failsWith_fail malformed_truncated _

theorem readU8_malformed (r : Bytes) : FailsWith Errc.Malformed (readU8 r) :=
  (readWord_malformed 1 r).bind fun _ => failsWith_ok _

theorem readU16_malformed (r : Bytes) : FailsWith Errc.Malformed (readU16 r) :=
  (readWord_malformed 2 r).bind fun _ => failsWith_ok _

theorem readU64_malformed (r : Bytes) : FailsWith Errc.Malformed (readU64 r) :=
  (readWord_malformed 8 r).bind fun _ => failsWith_ok _

theorem readBlock_malformed (n : ℕ) (r : Bytes) : FailsWith Errc.Malformed (readBlock n r) := by
  unfold readBlock
  split_ifs
  · exact failsWith_ok _
  · exact failsWith_fail malformed_truncated _

theorem readOptional_malformed {α : Type} {flagMsg : String} {read : Bytes → Result (α × Bytes)}
    (hread : ∀ r, FailsWith Errc.Malformed (read r)) (r : Bytes) :
    FailsWith Errc.Malformed (readOptional flagMsg read r) := by
  refine (readU8_malformed r).bind fun ⟨flag, r⟩ => FailsWith.guard malformed_badPacket ?_
  split_ifs
  · exact failsWith_ok _
  · exact (hread r).bind fun _ => failsWith_ok _

theorem readResumptionToken_malformed (r : Bytes) :
    FailsWith Errc.Malformed (readResumptionToken r) := by
  refine (readU64_malformed r).bind fun ⟨_, r⟩ => ?_
  refine (readU64_malformed r).bind fun ⟨_, r⟩ => ?_
  refine (readU64_malformed r).bind fun ⟨_, r⟩ => ?_
  exact (readBlock_malformed 16 r).bind fun _ =>
    FailsWith.guard malformed_badPacket (failsWith_ok _)

theorem readRetryToken_malformed (r : Bytes) : FailsWith Errc.Malformed (readRetryToken r) :=
  (readU64_malformed r).bind fun ⟨_, r⟩ => (readBlock_malformed 16 r).bind fun _ => failsWith_ok _

theorem readClientHello_malformed (r : Bytes) : FailsWith Errc.Malformed (readClientHello r) := by
  refine (readU8_malformed r).bind fun ⟨_, r⟩ => FailsWith.guard malformed_badPacket ?_
  refine (readBlock_malformed 32 r).bind fun ⟨_, r⟩ => ?_
  refine (readBlock_malformed 16 r).bind fun ⟨_, r⟩ => ?_
  refine (readOptional_malformed readRetryToken_malformed r).bind fun ⟨_, r⟩ => ?_
  refine (readOptional_malformed readResumptionToken_malformed r).bind fun ⟨_, r⟩ => ?_
  exact FailsWith.guard malformed_badPacket (failsWith_ok _)

theorem readRetry_malformed (r : Bytes) : FailsWith Errc.Malformed (readRetry r) := by
  refine (readU8_malformed r).bind fun ⟨_, r⟩ => FailsWith.guard malformed_badPacket ?_
  refine FailsWith.bind ?_ fun _ => FailsWith.guard malformed_badPacket (failsWith_ok _)
  refine (readU64_malformed r).bind fun ⟨_, r⟩ => ?_
  exact (readBlock_malformed 16 r).bind fun _ => failsWith_ok _

theorem readServerHello_malformed (r : Bytes) : FailsWith Errc.Malformed (readServerHello r) := by
  refine (readU8_malformed r).bind fun ⟨_, r⟩ => FailsWith.guard malformed_badPacket ?_
  refine (readU64_malformed r).bind fun ⟨_, r⟩ => ?_
  refine (readBlock_malformed 32 r).bind fun ⟨_, r⟩ => ?_
  refine (readBlock_malformed 16 r).bind fun ⟨_, r⟩ => ?_
  refine (readBlock_malformed 16 r).bind fun ⟨_, r⟩ => ?_
  refine (readOptional_malformed readResumptionToken_malformed r).bind fun ⟨_, r⟩ => ?_
  exact FailsWith.guard malformed_badPacket (FailsWith.guard malformed_badPacket (failsWith_ok _))

/-! ### Packets -/

variable {C : Crypto}

theorem openPacket_failsWith (packet : PacketView) (p : Party) :
    FailsWith (fun code => code.Malformed ∨ code = .authFailed) (p.openPacket C packet) := by
  unfold Party.openPacket
  rw [writePacketHeader_eq, ByteWriter.writeBytes_fresh, if_pos (by simp), Result.ok_bind]
  unfold cryptoAeadDecrypt
  refine FailsWith.guard (Or.inl malformed_badPacket)
    (FailsWith.guard (Or.inl malformed_truncated) ?_)
  split
  · exact failsWith_fail (Or.inr rfl) _
  · exact failsWith_ok _

def Errc.NotAuth (code : Errc) : Prop := code ≠ .authFailed

instance (code : Errc) : Decidable code.NotAuth := inferInstanceAs (Decidable (code ≠ _))

theorem Errc.Malformed.notAuth {code : Errc} (h : code.Malformed) : code.NotAuth := by
  rcases h with rfl | rfl <;> decide

/-- An empty close frame is an invalid argument, any other bad one is malformed. -/
theorem readCloseFrame_notAuth (r : Bytes) : FailsWith Errc.NotAuth (readCloseFrame r) := by
  refine FailsWith.guard (by decide) (FailsWith.bind ?_ fun ⟨raw, r⟩ =>
    FailsWith.guard (by decide) ?_)
  · exact fun e he => (readU16_malformed r e he).notAuth
  · cases CloseReason.ofCode raw with
    | none => exact failsWith_fail (by decide) _
    | some reason => exact failsWith_ok _

theorem validatePacketHeader_notAuth (h : PacketHeader) :
    FailsWith Errc.NotAuth (validatePacketHeader h) := by
  unfold validatePacketHeader
  repeat refine FailsWith.guard (by decide) ?_
  exact failsWith_ok _

theorem writeBytes_notAuth (w : ByteWriter) (p : Bytes) :
    FailsWith Errc.NotAuth (w.writeBytes p) := by
  unfold ByteWriter.writeBytes
  split_ifs
  · exact failsWith_ok _
  · exact failsWith_fail (by decide) _

theorem packPacket_notAuth (h : PacketHeader) (payload : Bytes) (outCap : ℕ) :
    FailsWith Errc.NotAuth (packPacket h payload outCap) := by
  have hv := validatePacketHeader_notAuth h
  have hpack : FailsWith Errc.NotAuth
      (if outCap < NetConfig.packetHeaderBytes + payload.length then
        fail .truncated "out buffer too small"
      else do
        let w ← writePacketHeader ⟨outCap, []⟩ h
        let w ← w.writeBytes payload
        return w.out) := by
    refine FailsWith.guard (by decide) ?_
    rw [writePacketHeader_eq]
    exact (writeBytes_notAuth _ _).bind fun w =>
      (writeBytes_notAuth _ _).bind fun _ => failsWith_ok _
  unfold packPacket
  refine FailsWith.guard (by decide) (FailsWith.guard (by decide) ?_)
  split
  · exact hpack
  · exact hpack
  · rename_i e _ heq
    intro e' he'
    cases he'
    exact hv e heq

theorem buildPacket_notAuth (kind : PacketKind) (encrypted : Bool) (payload : Bytes)
    (connId seq : UInt64) (key : Block 32) :
    FailsWith Errc.NotAuth (buildPacket C kind encrypted payload connId seq key) := by
  unfold buildPacket
  cases encrypted with
  | false => exact packPacket_notAuth _ _ _
  | true =>
    simp only [if_true]
    rw [writePacketHeader_eq]
    refine (writeBytes_notAuth _ _).bind fun aad => FailsWith.bind ?_ fun _ =>
      packPacket_notAuth _ _ _
    unfold cryptoAeadEncrypt
    refine FailsWith.guard (by decide) ?_
    split
    · exact failsWith_fail (by decide) _
    · exact failsWith_ok _

theorem sealAndEnqueue_notAuth (maxPending : UInt32) (dest : Endpoint) (owner : UInt64)
    (kind : PacketKind) (encrypted : Bool) (payload : Bytes) (connId seq : UInt64)
    (key : Block 32) (priority : SendPriority) (net : Transport) :
    FailsWith Errc.NotAuth (sealAndEnqueue C maxPending dest owner kind encrypted payload connId
      seq key priority net).1 := by
  have hb := buildPacket_notAuth (C := C) kind encrypted payload connId seq key
  unfold sealAndEnqueue
  cases hbuild : buildPacket C kind encrypted payload connId seq key with
  | error e =>
    intro e' he'
    cases he'
    exact hb e hbuild
  | ok bytes =>
    unfold enqueuePendingPacket
    dsimp only
    split_ifs
    · exact failsWith_fail (by decide) _
    · exact failsWith_ok _

theorem queuePacketClient_notAuth (config : ClientConfig) (kind : PacketKind) (encrypted : Bool)
    (payload : Bytes) (priority : SendPriority) (p : Party) :
    FailsWith Errc.NotAuth
      (p.queuePacketClient C config kind encrypted payload priority).1 := by
  unfold Party.queuePacketClient
  dsimp only
  split_ifs
  · exact failsWith_fail (by decide) _
  · exact failsWith_fail (by decide) _
  · exact failsWith_fail (by decide) _
  · exact sealAndEnqueue_notAuth _ _ _ _ _ _ _ _ _ _ _
  · exact sealAndEnqueue_notAuth _ _ _ _ _ _ _ _ _ _ _

end SecureCnet
