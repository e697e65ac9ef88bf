import SecureCnet.Session.State
import SecureCnet.Wire.HandshakeCodec

/-!
# NAT peer hints

A hint carries the address of a peer through a rendezvous server: family, port and sixteen
bytes of address. It has no room for the scope of a link-local IPv6 address, which
`operator==` of endpoints compares.
-/

namespace SecureCnet

inductive NatHintFamily
  | ipv4 | ipv6
  deriving DecidableEq

def NatHintFamily.value : NatHintFamily → UInt8
  | .ipv4 => 4
  | .ipv6 => 6

structure NatPeerHint where
  family : NatHintFamily
  port : UInt16
  address : Block 16
  deriving DecidableEq

namespace Endpoint

def port : Endpoint → UInt16
  | .uninitialized => 0
  | .ipv4 _ port => port
  | .ipv6 _ _ port => port

/-- The `sin6_scope_id` of an IPv6 endpoint. -/
def scopeId : Endpoint → UInt32
  | .ipv6 _ scopeId _ => scopeId
  | _ => 0

/-- The comparison `operator==` makes. -/
def same : Endpoint → Endpoint → Bool
  | .uninitialized, .uninitialized => true
  | .ipv4 addr port, .ipv4 addr' port' => port == port' && addr == addr'
  | .ipv6 addr scopeId port, .ipv6 addr' scopeId' port' =>
    port == port' && scopeId == scopeId' && addr == addr'
  | _, _ => false

theorem same_iff {e e' : Endpoint} : e.same e' = true ↔ e = e' := by
  cases e <;> cases e' <;> simp [same, and_comm, and_assoc]

end Endpoint

def writeNatPeerHint (w : ByteWriter) (hint : NatPeerHint) : Result ByteWriter :=
  if hint.port = 0 then fail .invalidArg "nat hint port must be non-zero"
  else do
    let w ← w.writeU8 hint.family.value
    let w ← w.writeU16 hint.port
    writeBlock w hint.address

def readNatFamily (value : UInt8) : Result NatHintFamily :=
  if value = NatHintFamily.ipv4.value then .ok .ipv4
  else if value = NatHintFamily.ipv6.value then .ok .ipv6
  else fail .badPacket "invalid nat hint family"

def readNatPeerHint (r : Bytes) : Result NatPeerHint := do
  let (value, r) ← ByteReader.readU8 r
  let family ← readNatFamily value
  let (port, r) ← ByteReader.readU16 r
  if port = 0 then fail .badPacket "nat hint port must be non-zero"
  else
    let (address, r) ← readBlock 16 r
    if r.length ≠ 0 then fail .badPacket "extra bytes in nat hint"
    else return ⟨family, port, address⟩

def padAddress (addr : Block 4) : Block 16 :=
  ⟨addr.toList ++ List.replicate 12 0, by simp⟩

def makeNatPeerHint : Endpoint → Result NatPeerHint
  | .uninitialized => fail .invalidArg "endpoint is empty"
  | .ipv4 addr port => .ok ⟨.ipv4, port, padAddress addr⟩
  | .ipv6 addr _ port => .ok ⟨.ipv6, port, addr⟩

def endpointFromNatPeerHint (hint : NatPeerHint) : Result Endpoint :=
  if hint.port = 0 then fail .invalidArg "nat hint port must be non-zero"
  else match hint.family with
    | .ipv4 => .ok (.ipv4 (hint.address.take 4) hint.port)
    | .ipv6 => .ok (.ipv6 hint.address 0 hint.port)

def NatPeerHint.encode (hint : NatPeerHint) : Bytes :=
  hint.family.value :: (be16 hint.port ++ hint.address.toList)

@[simp] theorem NatPeerHint.length_encode (hint : NatPeerHint) : hint.encode.length = 19 := by
  simp [NatPeerHint.encode]

theorem writeNatPeerHint_eq {w : ByteWriter} {hint : NatPeerHint} (h : hint.port ≠ 0) :
    writeNatPeerHint w hint = w.writeBytes hint.encode := by
  rw [writeNatPeerHint, if_neg h]
  simp only [ByteWriter.writeU8, ByteWriter.writeU16, writeBlock, ByteWriter.writeBytes_bind]
  rfl

theorem readNatPeerHint_encode {hint : NatPeerHint} (h : hint.port ≠ 0) :
    readNatPeerHint hint.encode = .ok hint := by
  have hfamily : readNatFamily hint.family.value = .ok hint.family := by
    cases hint.family <;> rfl
  have haddress : readBlock 16 hint.address.toList = .ok (hint.address, []) :=
    readBlock_eq_ok.mpr (List.append_nil _).symm
  simp [readNatPeerHint, NatPeerHint.encode, hfamily, h, haddress]

theorem take_padAddress (addr : Block 4) : (padAddress addr).take 4 = addr := by
  apply List.Vector.eq
  rw [List.Vector.toList_take]
  exact List.take_left' addr.toList_length

theorem endpoint_of_hint {e : Endpoint} (hport : e.port ≠ 0) :
    ∃ hint e', makeNatPeerHint e = .ok hint ∧ hint.port = e.port ∧
      endpointFromNatPeerHint hint = .ok e' ∧ (e' = e ↔ e.scopeId = 0) := by
  cases e with
  | uninitialized => exact absurd rfl hport
  | ipv4 addr port =>
    refine ⟨_, .ipv4 addr port, rfl, rfl, ?_, iff_of_true rfl rfl⟩
    simp only [endpointFromNatPeerHint, take_padAddress]
    exact if_neg hport
  | ipv6 addr scopeId port =>
    refine ⟨_, .ipv6 addr 0 port, rfl, rfl, if_neg hport, ?_⟩
    simp [Endpoint.scopeId, eq_comm]

/-- An endpoint survives the trip through a hint exactly when it has a port and no scope. -/
theorem natPeerHint_round_trip (e : Endpoint) (cap : ℕ) (hcap : 19 ≤ cap) :
    (∃ hint w e', makeNatPeerHint e = .ok hint ∧ writeNatPeerHint ⟨cap, []⟩ hint = .ok w ∧
      readNatPeerHint w.out = .ok hint ∧ endpointFromNatPeerHint hint = .ok e' ∧
      e'.same e = true) ↔ e.port ≠ 0 ∧ e.scopeId = 0 := by
  constructor
  · rintro ⟨hint, w, e', hmake, hwrite, -, hback, hsame⟩
    have hport : e.port ≠ 0 := by
      rintro hzero
      cases e with
      | uninitialized => cases hmake
      | ipv4 addr port | ipv6 addr scopeId port =>
        cases hmake
        cases hwrite.symm.trans (if_pos hzero)
    obtain ⟨hint', e'', hmake', -, hback', hscope⟩ := endpoint_of_hint hport
    cases hmake.symm.trans hmake'
    cases hback.symm.trans hback'
    exact ⟨hport, hscope.mp (Endpoint.same_iff.mp hsame)⟩
  · rintro ⟨hport, hscope⟩
    obtain ⟨hint, e', hmake, hhint, hback, hiff⟩ := endpoint_of_hint hport
    have hne : hint.port ≠ 0 := hhint ▸ hport
    refine ⟨hint, ⟨cap, hint.encode⟩, e', hmake, ?_, readNatPeerHint_encode hne, hback,
      Endpoint.same_iff.mpr (hiff.mpr hscope)⟩
    rw [writeNatPeerHint_eq hne, ByteWriter.writeBytes_fresh, if_pos (by simpa using hcap)]

/-- `192.0.2.1:9000` comes back in a buffer of the exact size. -/
theorem natPeerHint_round_trip_ipv4 : ∃ hint w e',
    makeNatPeerHint (.ipv4 ⟨[192, 0, 2, 1], rfl⟩ 9000) = .ok hint ∧
      writeNatPeerHint ⟨19, []⟩ hint = .ok w ∧ readNatPeerHint w.out = .ok hint ∧
      endpointFromNatPeerHint hint = .ok e' ∧
      e'.same (.ipv4 ⟨[192, 0, 2, 1], rfl⟩ 9000) = true :=
  (natPeerHint_round_trip _ 19 le_rfl).mpr ⟨by decide, rfl⟩

/-- `[fe80::1%2]:9000` comes back without its scope. -/
theorem natPeerHint_drops_scope :
    let addr : Block 16 := ⟨[0xFE, 0x80, 0, 0, 0, 0, 0, 0, 0, 0, 0, 0, 0, 0, 0, 1], rfl⟩
    let e : Endpoint := .ipv6 addr 2 9000
    let hint : NatPeerHint := ⟨.ipv6, 9000, addr⟩
    e.port ≠ 0 ∧ makeNatPeerHint e = .ok hint ∧
      writeNatPeerHint ⟨19, []⟩ hint = .ok ⟨19, hint.encode⟩ ∧
      readNatPeerHint hint.encode = .ok hint ∧
      endpointFromNatPeerHint hint = .ok (.ipv6 addr 0 9000) ∧
      Endpoint.same (.ipv6 addr 0 9000) e = false := by
  decide

end SecureCnet
