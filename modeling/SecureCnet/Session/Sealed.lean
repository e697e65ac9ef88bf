import SecureCnet.Session.Frames

/-!
# What a datagram carries

A packet built by one side is parsed by the other into the header it was built
with, and, when the keys match, opened to the payload that was sealed.
-/

namespace SecureCnet

variable {C : Crypto} {kind : PacketKind} {payload bytes : Bytes} {connId seq : UInt64}
  {key : Block 32}

/-- A packed datagram parses to what was packed. -/
theorem parsePacket_packPacket {h : PacketHeader} {outCap : ℕ}
    (hv : h.version = NetConfig.protocolVersion) (hp : packPacket h payload outCap = .ok bytes) :
    parsePacket bytes = .ok ⟨h, payload⟩ := by
  unfold packPacket at hp
  rw [Result.guard_eq_ok, Result.guard_eq_ok] at hp
  obtain ⟨hlen, hpl, hp⟩ := hp
  have hlen' : payload.length = h.payloadLen.toNat := by
    rw [not_not.mp hpl, UInt32.toNat_ofNat', Nat.mod_eq_of_lt]
    simp at hlen
    omega
  cases hval : validatePacketHeader h with
  | error e =>
    obtain ⟨code, msg⟩ := e
    have hcode : code ≠ .unsupportedVersion := by
      rintro rfl
      unfold validatePacketHeader at hval
      simp only [hv, ne_eq, not_true_eq_false, if_false] at hval
      split_ifs at hval <;> simp [fail] at hval
    rw [hval] at hp
    cases code <;> simp_all
  | ok u =>
    rw [hval] at hp
    simp only [Result.guard_eq_ok] at hp
    obtain ⟨hcap, hp⟩ := hp
    rw [writePacketHeader_eq, ByteWriter.writeBytes_of_le (by simp at hcap ⊢; omega),
      Result.ok_bind, ByteWriter.writeBytes_of_le (by simp at hcap ⊢; omega), Result.ok_bind] at hp
    simp only [Result.pure_eq, Except.ok.injEq, List.nil_append] at hp
    exact parsePacket_eq_ok.mpr ⟨hp.symm, hval, hlen'⟩

/-- The header of a packet. -/
def packetHeader (kind : PacketKind) (encrypted : Bool) (connId seq : UInt64) (len : ℕ) :
    PacketHeader where
  kind := kind.code
  flags := if encrypted then packetFlagEncrypted else 0
  connId
  seq
  payloadLen := UInt32.ofNat len

@[simp] theorem packetHeaderEncrypted_packetHeader (encrypted : Bool) (len : ℕ) :
    packetHeaderEncrypted (packetHeader kind encrypted connId seq len) = encrypted := by
  cases encrypted <;> simp [packetHeaderEncrypted, packetHeader, packetFlagEncrypted]

theorem validatePacketHeader_packetHeader (kind : PacketKind) (encrypted : Bool)
    (connId seq : UInt64) {len : ℕ} (h : len ≤ NetConfig.maxPayloadBytes) :
    validatePacketHeader (packetHeader kind encrypted connId seq len) = .ok () := by
  have hlen : ¬NetConfig.maxPayloadBytes < (UInt32.ofNat len).toNat := by
    rw [UInt32.toNat_ofNat', not_lt]
    exact (Nat.mod_le _ _).trans h
  have hkind : packetKindValid kind.code = true := by cases kind <;> rfl
  simp only [validatePacketHeader, packetHeader, hkind, hlen, if_false]
  cases encrypted <;> rfl

theorem buildPacket_plain (h : payload.length ≤ NetConfig.maxPayloadBytes) (C : Crypto)
    (kind : PacketKind) (connId seq : UInt64) (key : Block 32) :
    buildPacket C kind false payload connId seq key =
      .ok ((packetHeader kind false connId seq payload.length).encode ++ payload) :=
  packPacket_of_valid (validatePacketHeader_packetHeader kind false connId seq h) h rfl
    (by simp at h ⊢; omega)

theorem parsePacket_buildPacket_plain (h : buildPacket C kind false payload connId seq key =
    .ok bytes) :
    parsePacket bytes = .ok ⟨packetHeader kind false connId seq payload.length, payload⟩ :=
  parsePacket_packPacket rfl h

theorem parsePacket_buildPacket_encrypted
    (h : buildPacket C kind true payload connId seq key = .ok bytes) :
    ∃ c, C.aeadEncrypt key (cryptoMakePacketNonce connId seq)
        (packetHeader kind true connId seq (payload.length + NetConfig.aeadTagBytes)).encode
        payload = some c ∧
      payload.length + NetConfig.aeadTagBytes ≤ NetConfig.maxPayloadBytes ∧
      parsePacket bytes =
        .ok ⟨packetHeader kind true connId seq (payload.length + NetConfig.aeadTagBytes), c⟩ := by
  unfold buildPacket at h
  simp only [if_true] at h
  rw [writePacketHeader_eq, ByteWriter.writeBytes_fresh, if_pos (by simp), Result.ok_bind,
    Result.bind_eq_ok] at h
  obtain ⟨c, hc, hpack⟩ := h
  unfold cryptoAeadEncrypt at hc
  rw [Result.guard_eq_ok] at hc
  obtain ⟨hcap, hc⟩ := hc
  split at hc
  · cases hc
  · next c' henc =>
    cases hc
    exact ⟨c, henc, not_lt.mp hcap, parsePacket_packPacket rfl hpack⟩

/-- A sealed packet is opened by the holder of the key. -/
theorem openPacket_of_buildPacket (hC : C.IdealAead)
    (h : buildPacket C kind true payload connId seq key = .ok bytes) :
    ∃ c, parsePacket bytes =
        .ok ⟨packetHeader kind true connId seq (payload.length + NetConfig.aeadTagBytes), c⟩ ∧
      payload.length ≤ NetConfig.maxEncryptedPlaintextBytes ∧
      ∀ p : Party, p.session.keys.rx = key → p.openPacket C
        ⟨packetHeader kind true connId seq (payload.length + NetConfig.aeadTagBytes), c⟩ =
          .ok payload := by
  obtain ⟨c, henc, hlen, hparse⟩ := parsePacket_buildPacket_encrypted h
  have hmax : payload.length ≤ NetConfig.maxEncryptedPlaintextBytes := by
    simp at hlen ⊢
    omega
  refine ⟨c, hparse, hmax, ?_⟩
  intro p hp
  obtain ⟨c', henc', hclen, hdec⟩ := hC.encrypt key (cryptoMakePacketNonce connId seq)
    (packetHeader kind true connId seq (payload.length + NetConfig.aeadTagBytes)).encode payload
  rw [henc, Option.some.injEq] at henc'
  subst henc'
  unfold Party.openPacket
  rw [writePacketHeader_eq, ByteWriter.writeBytes_fresh, if_pos (by simp), Result.ok_bind]
  unfold cryptoAeadDecrypt
  rw [if_neg (by simp at hclen ⊢; omega), if_neg (by simp at hclen hmax ⊢; omega), hp]
  simp only [packetHeader] at hdec ⊢
  rw [hdec]

end SecureCnet
