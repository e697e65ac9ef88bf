import SecureCnet.Session.State

/-!
# Address tokens

The server authenticates an address without keeping state: a retry token is a
keyed hash over the printed endpoint, the client's public key and nonce and the
issue time; a resumption token covers the printed host, its validity and a ticket
id. Both are hashed under the same cookie secret.

How addresses are printed is `inet_ntop`'s business and a parameter here. Its
buffers bound the lengths, and nothing else about the text is used.
-/

namespace SecureCnet

def ascii (s : String) : Bytes := s.toList.map fun c => UInt8.ofNat c.toNat

/-- `std::to_string`. -/
def decimal (n : ℕ) : Bytes := (Nat.toDigits 10 n).map fun c => UInt8.ofNat c.toNat

theorem length_decimal_le {n k : ℕ} (hk : 0 < k) (h : n < 10 ^ k) : (decimal n).length ≤ k := by
  rw [decimal, List.length_map]
  exact (Nat.length_toDigits_le_iff (by decide) hk).mpr h

theorem decimal_ne_nil (n : ℕ) : decimal n ≠ [] := by
  rw [decimal, Nat.toDigits_eq_if (by decide)]
  split_ifs <;> simp

theorem ne_zero_of_mem_decimal {n : ℕ} {b : UInt8} (h : b ∈ decimal n) : b ≠ 0 := by
  obtain ⟨c, hc, rfl⟩ := List.mem_map.mp h
  have hdigit := Nat.isDigit_of_mem_toDigits (by decide) (by decide) hc
  simp only [Char.isDigit, Bool.and_eq_true, decide_eq_true_eq] at hdigit
  have hlow : 48 ≤ c.toNat := hdigit.1
  have hhigh : c.toNat ≤ 57 := hdigit.2
  intro h0
  have := congrArg UInt8.toNat h0
  simp only [UInt8.toNat_ofNat', UInt8.toNat_zero] at this
  omega

/-- The textual forms of addresses; they fit `INET_ADDRSTRLEN` and `INET6_ADDRSTRLEN`. -/
structure InetNtop where
  ipv4 : Block 4 → Bytes
  ipv6 : Block 16 → Bytes
  length_ipv4 : ∀ a, (ipv4 a).length < 16
  length_ipv6 : ∀ a, (ipv6 a).length < 46

namespace Endpoint

variable (N : InetNtop)

/-- `Endpoint::to_string`. -/
def toText : Endpoint → Bytes
  | .uninitialized => ascii "<uninitialized>:0"
  | .ipv4 addr port => N.ipv4 addr ++ (ascii ":" ++ decimal port.toNat)
  | .ipv6 addr _ port => ascii "[" ++ (N.ipv6 addr ++ (ascii "]:" ++ decimal port.toNat))

/-- The text of `endpoint_host_key`. -/
def hostText : Endpoint → Bytes
  | .uninitialized => ascii "<uninitialized>"
  | .ipv4 addr _ => N.ipv4 addr
  | .ipv6 addr _ _ => N.ipv6 addr

def IsInet : Endpoint → Prop
  | .uninitialized => False
  | .ipv4 _ _ | .ipv6 _ _ _ => True

instance : DecidablePred IsInet
  | .uninitialized => .isFalse id
  | .ipv4 _ _ | .ipv6 _ _ _ => .isTrue trivial

variable {N}

theorem length_port_le (port : UInt16) : (decimal port.toNat).length ≤ 5 :=
  length_decimal_le (by decide) (port.toNat_lt.trans (by decide))

theorem length_toText_le (e : Endpoint) : (e.toText N).length ≤ 53 := by
  cases e with
  | uninitialized => exact of_decide_eq_true rfl
  | ipv4 addr port =>
    have haddr := N.length_ipv4 addr
    have hport := length_port_le port
    simp only [toText, ascii, List.length_append, List.length_map]
    change _ + (1 + _) ≤ _
    omega
  | ipv6 addr scopeId port =>
    have haddr := N.length_ipv6 addr
    have hport := length_port_le port
    simp only [toText, ascii, List.length_append, List.length_map]
    change 1 + (_ + (2 + _)) ≤ _
    omega

theorem length_hostText_le (e : Endpoint) : (e.hostText N).length ≤ 45 := by
  cases e with
  | uninitialized => exact of_decide_eq_true rfl
  | ipv4 addr port => exact (Nat.le_of_lt_succ (N.length_ipv4 addr)).trans (by decide)
  | ipv6 addr scopeId port => exact Nat.le_of_lt_succ (N.length_ipv6 addr)

/-- The printed form of an internet endpoint ends with a digit of its port. -/
theorem toText_eq_snoc {e : Endpoint} (h : e.IsInet) :
    ∃ front b, e.toText N = front ++ [b] ∧ b ≠ 0 := by
  have hport : ∀ port : UInt16, ∃ front b, decimal port.toNat = front ++ [b] ∧ b ≠ 0 := by
    intro port
    have hne := decimal_ne_nil port.toNat
    refine ⟨_, _, (List.dropLast_append_getLast hne).symm, ?_⟩
    exact ne_zero_of_mem_decimal (List.getLast_mem hne)
  cases e with
  | uninitialized => exact h.elim
  | ipv4 addr port =>
    obtain ⟨front, b, hd, hb⟩ := hport port
    exact ⟨N.ipv4 addr ++ (ascii ":" ++ front), b, by simp [toText, hd], hb⟩
  | ipv6 addr scopeId port =>
    obtain ⟨front, b, hd, hb⟩ := hport port
    exact ⟨ascii "[" ++ (N.ipv6 addr ++ (ascii "]:" ++ front)), b, by simp [toText, hd], hb⟩

end Endpoint

/-- A write whose failure is ignored. -/
def ByteWriter.tryBytes (w : ByteWriter) (p : Bytes) : ByteWriter :=
  match w.writeBytes p with
  | .ok w => w
  | .error _ => w

theorem ByteWriter.foldl_tryBytes (ps : List Bytes) (w : ByteWriter)
    (h : w.out.length + ps.flatten.length ≤ w.cap) :
    ps.foldl tryBytes w = { w with out := w.out ++ ps.flatten } := by
  induction ps generalizing w with
  | nil => simp
  | cons p ps ih =>
    rw [List.flatten_cons, List.length_append] at h
    rw [List.foldl_cons, tryBytes, writeBytes_of_le (by omega)]
    rw [ih _ (by simp only [List.length_append]; omega)]
    simp

section

variable (N : InetNtop)

/-- The input `make_retry_token` hashes, written into a buffer of 256 bytes. -/
def retryMacInput (source : Endpoint) (publicKey : Block 32) (nonce : Block 16)
    (issuedAtMs : UInt64) : Bytes :=
  let endpointString := source.toText N
  let w : ByteWriter := ⟨256, []⟩
  let w := w.tryBytes (be64 issuedAtMs)
  let w := w.tryBytes (be16 NetConfig.protocolVersion)
  let w := w.tryBytes (be16 (UInt16.ofNat endpointString.length))
  let w := w.tryBytes endpointString
  let w := w.tryBytes publicKey.toList
  (w.tryBytes nonce.toList).out

/-- The input of a resumption token's MAC, in the same kind of buffer. -/
def resumptionMacInput (source : Endpoint) (issuedAtMs expiresAtMs ticketId : UInt64) :
    Result Bytes := do
  let hostKey := source.hostText N
  let w ← ByteWriter.writeU64 ⟨256, []⟩ issuedAtMs
  let w ← w.writeU64 expiresAtMs
  let w ← w.writeU64 ticketId
  let w ← w.writeU16 NetConfig.protocolVersion
  let w ← w.writeU16 (UInt16.ofNat hostKey.length)
  let w ← w.writeBytes hostKey
  return w.out

/-- The layout of a retry token's MAC input. -/
def retryLayout (text : Bytes) (publicKey : Block 32) (nonce : Block 16) (issuedAtMs : UInt64) :
    Bytes :=
  be64 issuedAtMs ++ (be16 NetConfig.protocolVersion ++ (be16 (UInt16.ofNat text.length) ++
    (text ++ (publicKey.toList ++ nonce.toList))))

/-- The layout of a resumption token's MAC input. -/
def resumptionLayout (host : Bytes) (issuedAtMs expiresAtMs ticketId : UInt64) : Bytes :=
  be64 issuedAtMs ++ (be64 expiresAtMs ++ (be64 ticketId ++
    (be16 NetConfig.protocolVersion ++ (be16 (UInt16.ofNat host.length) ++ host))))

variable {N} {source : Endpoint} {publicKey : Block 32} {nonce : Block 16}
  {issuedAtMs expiresAtMs ticketId : UInt64}

@[simp] theorem length_retryLayout (text : Bytes) :
    (retryLayout text publicKey nonce issuedAtMs).length = 60 + text.length := by
  simp [retryLayout]
  omega

@[simp] theorem length_resumptionLayout (host : Bytes) :
    (resumptionLayout host issuedAtMs expiresAtMs ticketId).length = 28 + host.length := by
  simp [resumptionLayout]
  omega

theorem retryMacInput_eq :
    retryMacInput N source publicKey nonce issuedAtMs =
      retryLayout (source.toText N) publicKey nonce issuedAtMs := by
  have htext := Endpoint.length_toText_le (N := N) source
  have hwrites := ByteWriter.foldl_tryBytes
    [be64 issuedAtMs, be16 NetConfig.protocolVersion,
      be16 (UInt16.ofNat (source.toText N).length), source.toText N, publicKey.toList,
      nonce.toList] ⟨256, []⟩ (by simp; omega)
  have hout := congrArg ByteWriter.out hwrites
  simpa [retryMacInput, retryLayout] using hout

theorem resumptionMacInput_eq :
    resumptionMacInput N source issuedAtMs expiresAtMs ticketId =
      .ok (resumptionLayout (source.hostText N) issuedAtMs expiresAtMs ticketId) := by
  have hhost := Endpoint.length_hostText_le (N := N) source
  unfold resumptionMacInput ByteWriter.writeU64 ByteWriter.writeU16
  dsimp only
  rw [ByteWriter.writeBytes_of_le, Result.ok_bind, ByteWriter.writeBytes_of_le, Result.ok_bind,
    ByteWriter.writeBytes_of_le, Result.ok_bind, ByteWriter.writeBytes_of_le, Result.ok_bind,
    ByteWriter.writeBytes_of_le, Result.ok_bind, ByteWriter.writeBytes_of_le, Result.ok_bind]
  · simp [resumptionLayout]
  all_goals simp
  all_goals omega

theorem be16_inj {v w : UInt16} (h : be16 v = be16 w) : v = w :=
  UInt16.toNat_inj.mp (BigEndian.toBE_inj v.toNat_lt w.toNat_lt h)

theorem length_eq_of_ofNat {m n : ℕ} (hm : m < 2 ^ 16) (hn : n < 2 ^ 16)
    (h : UInt16.ofNat m = UInt16.ofNat n) : m = n := by
  have := congrArg UInt16.toNat h
  rwa [UInt16.toNat_ofNat_of_lt' hm, UInt16.toNat_ofNat_of_lt' hn] at this

/-- The fields of a retry token can be read off its MAC input. -/
theorem retryLayout_inj {text text' : Bytes} {publicKey' : Block 32} {nonce' : Block 16}
    {issuedAtMs' : UInt64} (ht : text.length < 2 ^ 16) (ht' : text'.length < 2 ^ 16)
    (h : retryLayout text publicKey nonce issuedAtMs =
      retryLayout text' publicKey' nonce' issuedAtMs') :
    text = text' ∧ publicKey = publicKey' ∧ nonce = nonce' ∧ issuedAtMs = issuedAtMs' := by
  obtain ⟨hissued, h⟩ := List.append_inj h (by simp)
  obtain ⟨-, h⟩ := List.append_inj h rfl
  obtain ⟨hlen, h⟩ := List.append_inj h (by simp)
  have hl := length_eq_of_ofNat ht ht' (be16_inj hlen)
  obtain ⟨htext, h⟩ := List.append_inj h hl
  obtain ⟨hkey, hnonce⟩ := List.append_inj h (by simp)
  exact ⟨htext, List.Vector.toList_injective hkey, List.Vector.toList_injective hnonce,
    be64_inj hissued⟩

theorem resumptionLayout_inj {host host' : Bytes} {issuedAtMs' expiresAtMs' ticketId' : UInt64}
    (h : resumptionLayout host issuedAtMs expiresAtMs ticketId =
      resumptionLayout host' issuedAtMs' expiresAtMs' ticketId') :
    host = host' ∧ issuedAtMs = issuedAtMs' ∧ expiresAtMs = expiresAtMs' ∧
      ticketId = ticketId' := by
  obtain ⟨hissued, h⟩ := List.append_inj h (by simp)
  obtain ⟨hexpires, h⟩ := List.append_inj h (by simp)
  obtain ⟨hticket, h⟩ := List.append_inj h (by simp)
  obtain ⟨-, h⟩ := List.append_inj h rfl
  obtain ⟨-, hhost⟩ := List.append_inj h (by simp)
  exact ⟨hhost, be64_inj hissued, be64_inj hexpires, be64_inj hticket⟩

/-- Strings of the two layouts with equal lengths and room for both headers can be equal. -/
theorem layouts_collide {text host : Bytes} (htext : text.length ≤ 12)
    (hlen : host.length = text.length + 32) (issuedAtMs : UInt64) :
    ∃ publicKey nonce expiresAtMs ticketId,
      retryLayout text publicKey nonce issuedAtMs =
        resumptionLayout host issuedAtMs expiresAtMs ticketId := by
  -- The header of the retry layout stands where expiry and ticket are, that of the
  -- resumption layout inside the public key.
  let head := be16 NetConfig.protocolVersion ++ (be16 (UInt16.ofNat text.length) ++ text)
  let gap : Bytes := List.replicate (12 - text.length) 0
  let tail := be16 NetConfig.protocolVersion ++ (be16 (UInt16.ofNat host.length) ++ host)
  have hhead : (head ++ gap).length = 16 := by
    simp [head, gap]
    omega
  have htail : (gap ++ tail).length = 48 := by
    simp [tail, gap]
    omega
  have hword : ∀ bs : Bytes, bs.length = 8 → be64 (UInt64.ofNat (BigEndian.ofBE bs)) = bs := by
    intro bs hbs
    have hlt : BigEndian.ofBE bs < 2 ^ 64 := by
      have := BigEndian.ofBE_lt bs
      rwa [hbs] at this
    rw [be64, UInt64.toNat_ofNat_of_lt' hlt, ← hbs, BigEndian.toBE_ofBE]
  refine ⟨⟨(gap ++ tail).take 32, by simp [htail]⟩, ⟨(gap ++ tail).drop 32, by simp [htail]⟩,
    UInt64.ofNat (BigEndian.ofBE ((head ++ gap).take 8)),
    UInt64.ofNat (BigEndian.ofBE ((head ++ gap).drop 8)), ?_⟩
  have hretry : retryLayout text ⟨(gap ++ tail).take 32, by simp [htail]⟩
      ⟨(gap ++ tail).drop 32, by simp [htail]⟩ issuedAtMs =
        be64 issuedAtMs ++ (head ++ (gap ++ tail)) := by
    simp only [retryLayout, List.Vector.toList_mk, List.take_append_drop, head, List.append_assoc]
  rw [hretry, resumptionLayout, hword _ (by simp [hhead]), hword _ (by simp [hhead])]
  rw [← List.append_assoc head, ← List.append_assoc (List.take 8 (head ++ gap)),
    List.take_append_drop]

end

section

variable (C : Crypto) (N : InetNtop) (cookieSecret : Block 32)

/-- The MAC field after a hash whose failure is ignored. -/
def tokenMac (input : Bytes) : Block 16 :=
  match cryptoKeyedHash C cookieSecret input with
  | .ok mac => mac
  | .error _ => Block.zero 16

def makeRetryToken (source : Endpoint) (hello : ClientHello) (issuedAtMs : UInt64) : RetryToken :=
  ⟨issuedAtMs, tokenMac C cookieSecret
    (retryMacInput N source hello.clientPublicKey hello.clientNonce issuedAtMs)⟩

def validateRetryToken (source : Endpoint) (hello : ClientHello) (token : RetryToken)
    (now : UInt64) : Result Unit :=
  if now < token.issuedAtMs ∨ NetConfig.retryTokenLifetimeMs < now - token.issuedAtMs then
    fail .timeout "retry token expired"
  else if (makeRetryToken C N cookieSecret source hello token.issuedAtMs).mac ≠ token.mac then
    fail .authFailed "retry token MAC mismatch"
  else .ok ()

/-- `ticketId` is the nonzero random number the source draws. -/
def makeResumptionToken (source : Endpoint) (issuedAtMs ticketId : UInt64) : ResumptionToken :=
  let expiresAtMs := issuedAtMs + NetConfig.resumptionTokenLifetimeMs
  ⟨issuedAtMs, expiresAtMs, ticketId,
    match resumptionMacInput N source issuedAtMs expiresAtMs ticketId with
    | .ok input => tokenMac C cookieSecret input
    | .error _ => Block.zero 16⟩

def validateResumptionToken (source : Endpoint) (token : ResumptionToken) (now : UInt64) :
    Result Unit :=
  if token.ticketId = 0 then fail .badPacket "resumption token missing ticket id"
  else if now < token.issuedAtMs ∨ token.expiresAtMs ≤ token.issuedAtMs ∨
      token.expiresAtMs < now then
    fail .timeout "resumption token expired"
  else do
    let input ← resumptionMacInput N source token.issuedAtMs token.expiresAtMs token.ticketId
    let expectedMac ← cryptoKeyedHash C cookieSecret input
    if expectedMac ≠ token.mac then fail .authFailed "resumption token MAC mismatch"
    else .ok ()

variable {C N cookieSecret} {source : Endpoint} {now : UInt64}

theorem validateRetryToken_eq_ok {hello : ClientHello} {token : RetryToken} :
    validateRetryToken C N cookieSecret source hello token now = .ok () ↔
      token.issuedAtMs ≤ now ∧ now - token.issuedAtMs ≤ NetConfig.retryTokenLifetimeMs ∧
        token.mac = (makeRetryToken C N cookieSecret source hello token.issuedAtMs).mac := by
  unfold validateRetryToken
  rw [Result.guard_eq_ok, Result.guard_eq_ok, not_or, UInt64.not_lt, UInt64.not_lt, not_not,
    and_assoc]
  simp only [and_true]
  exact and_congr_right fun _ => and_congr_right fun _ => eq_comm

theorem validateResumptionToken_eq_ok {token : ResumptionToken} :
    validateResumptionToken C N cookieSecret source token now = .ok () ↔
      token.ticketId ≠ 0 ∧ token.issuedAtMs ≤ now ∧ token.issuedAtMs < token.expiresAtMs ∧
        now ≤ token.expiresAtMs ∧
        C.genericHash cookieSecret (resumptionLayout (source.hostText N) token.issuedAtMs
          token.expiresAtMs token.ticketId) = some token.mac := by
  unfold validateResumptionToken cryptoKeyedHash
  rw [Result.guard_eq_ok, Result.guard_eq_ok, not_or, not_or, UInt64.not_lt, UInt64.not_le,
    UInt64.not_lt, resumptionMacInput_eq, Result.ok_bind]
  cases hh : C.genericHash cookieSecret (resumptionLayout (source.hostText N) token.issuedAtMs
      token.expiresAtMs token.ticketId) with
  | none => simp
  | some mac =>
    simp only [Result.ok_bind, Result.guard_eq_ok, not_not, and_true, Option.some.injEq, ne_eq,
      and_assoc]

end

/-! ### The usual textual forms -/

/-- Pieces separated by a character. -/
def joinWith (c : Char) (parts : List Bytes) : Bytes :=
  (parts.flatMap fun p => p ++ [UInt8.ofNat c.toNat]).dropLast

theorem length_joinWith_le (c : Char) {k : ℕ} {parts : List Bytes}
    (h : ∀ p ∈ parts, p.length ≤ k) : (joinWith c parts).length ≤ parts.length * (k + 1) - 1 := by
  have hsum : (parts.flatMap fun p => p ++ [UInt8.ofNat c.toNat]).length ≤
      parts.length * (k + 1) := by
    induction parts with
    | nil => simp
    | cons p ps ih =>
      have hp := h p (by simp)
      have hps := ih fun q hq => h q (by simp [hq])
      rw [List.flatMap_cons, List.length_append, List.length_append, List.length_cons (a := p),
        Nat.add_mul, List.length_singleton]
      omega
  rw [joinWith, List.length_dropLast]
  omega

def dottedQuad (bytes : Bytes) : Bytes := joinWith '.' (bytes.map fun b => decimal b.toNat)

def hexWord (w : ℕ) : Bytes := (Nat.toDigits 16 w).map fun c => UInt8.ofNat c.toNat

/-- The 16-bit words of an address. -/
def addressWords (bytes : Bytes) : List ℕ :=
  (List.range 8).map fun i => BigEndian.ofBE ((bytes.drop (2 * i)).take 2)

def zeroRun (ws : List ℕ) (i : ℕ) : ℕ := ((ws.drop i).takeWhile (· = 0)).length

/-- The start of the first longest run of zero words. -/
def longestRun (ws : List ℕ) : ℕ :=
  (List.range 8).foldl (fun best i => if zeroRun ws best < zeroRun ws i then i else best) 0

/-- Lower-case hexadecimal with the first longest run of zero words as two colons, and an embedded
IPv4 address in dotted form. -/
def colonHex (bytes : Bytes) : Bytes :=
  let ws := addressWords bytes
  let base := longestRun ws
  let run := zeroRun ws base
  if run < 2 then joinWith ':' (ws.map hexWord)
  else if base = 0 ∧ run = 6 then ascii "::" ++ dottedQuad (bytes.drop 12)
  else if base = 0 ∧ run = 5 ∧ ws[5]? = some 0xFFFF then
    ascii "::ffff:" ++ dottedQuad (bytes.drop 12)
  else joinWith ':' ((ws.take base).map hexWord) ++
    (ascii "::" ++ joinWith ':' ((ws.drop (base + run)).map hexWord))

theorem length_dottedQuad_le {bytes : Bytes} (h : bytes.length = 4) :
    (dottedQuad bytes).length ≤ 15 := by
  have hparts : ∀ p ∈ bytes.map fun b => decimal b.toNat, p.length ≤ 3 := by
    intro p hp
    obtain ⟨b, -, rfl⟩ := List.mem_map.mp hp
    exact length_decimal_le (by decide) (b.toNat_lt.trans (by decide))
  have hle := length_joinWith_le '.' hparts
  rwa [List.length_map, h] at hle

theorem length_addressWords (bytes : Bytes) : (addressWords bytes).length = 8 := by
  simp [addressWords]

theorem length_hexWords_le (bytes : Bytes) {ws : List ℕ} (h : ws ⊆ addressWords bytes) :
    (joinWith ':' (ws.map hexWord)).length ≤ ws.length * 5 - 1 := by
  have hparts : ∀ p ∈ ws.map hexWord, p.length ≤ 4 := by
    intro p hp
    obtain ⟨w, hw, rfl⟩ := List.mem_map.mp hp
    obtain ⟨i, -, rfl⟩ := List.mem_map.mp (h hw)
    rw [hexWord, List.length_map]
    apply (Nat.length_toDigits_le_iff (by decide) (by decide)).mpr
    have hlt := BigEndian.ofBE_lt ((bytes.drop (2 * i)).take 2)
    have hpow : 256 ^ ((bytes.drop (2 * i)).take 2).length ≤ 256 ^ 2 :=
      Nat.pow_le_pow_right (by decide) (by simp)
    omega
  have hle := length_joinWith_le ':' hparts
  rwa [List.length_map] at hle

theorem length_colonHex_le {bytes : Bytes} (h : bytes.length = 16) :
    (colonHex bytes).length < 46 := by
  have hquad : (dottedQuad (bytes.drop 12)).length ≤ 15 := length_dottedQuad_le (by simp [h])
  have hws := length_addressWords bytes
  unfold colonHex
  dsimp only
  split_ifs with hrun hsix hfive
  · have := length_hexWords_le bytes (List.Subset.refl _)
    omega
  · rw [List.length_append]
    change 2 + _ < _
    omega
  · rw [List.length_append]
    change 7 + _ < _
    omega
  · have htake := length_hexWords_le bytes
      (List.take_subset (longestRun (addressWords bytes)) _)
    have hdrop := length_hexWords_le bytes
      (List.drop_subset (longestRun (addressWords bytes) +
        zeroRun (addressWords bytes) (longestRun (addressWords bytes))) _)
    rw [List.length_take] at htake
    rw [List.length_drop] at hdrop
    rw [List.length_append, List.length_append]
    change _ + (2 + _) < _
    omega

/-- `inet_ntop` of the C library. -/
def InetNtop.standard : InetNtop where
  ipv4 a := dottedQuad a.toList
  ipv6 a := colonHex a.toList
  length_ipv4 a := Nat.lt_succ_of_le (length_dottedQuad_le (by simp))
  length_ipv6 a := length_colonHex_le (by simp)

example : InetNtop.standard.ipv6 Block.loopback6 = ascii "::1" := by
  decide +kernel

/-! ### Separation of the two inputs -/

/-- The retry input for `source` and the resumption input for `other` never agree, whatever the
other fields are, exactly when their lengths rule it out. -/
theorem macInputs_separated_iff {N : InetNtop} {source other : Endpoint} (h : source.IsInet) :
    (∀ publicKey nonce issuedAtMs issuedAtMs' expiresAtMs ticketId,
      resumptionMacInput N other issuedAtMs' expiresAtMs ticketId ≠
        .ok (retryMacInput N source publicKey nonce issuedAtMs)) ↔
      (other.hostText N).length ≠ (source.toText N).length + 32 ∨ 12 < (source.toText N).length := by
  simp only [resumptionMacInput_eq, retryMacInput_eq, ne_eq, Except.ok.injEq]
  constructor
  · intro hsep
    by_contra hno
    rw [not_or, not_not, not_lt] at hno
    obtain ⟨publicKey, nonce, expires, ticket, heq⟩ := layouts_collide hno.2 hno.1 0
    exact hsep publicKey nonce 0 0 expires ticket heq.symm
  · intro hor publicKey nonce issued issued' expires ticket heq
    have hlen : (other.hostText N).length = (source.toText N).length + 32 := by
      have := congrArg List.length heq
      simp only [length_retryLayout, length_resumptionLayout] at this
      omega
    rcases hor with hne | hlong
    · exact hne hlen
    · -- A longer text has to be 13 bytes, so its last digit meets the version's high byte.
      have hhost := Endpoint.length_hostText_le (N := N) other
      have hthirteen : (source.toText N).length = 13 := by omega
      obtain ⟨front, b, hsnoc, hb⟩ := Endpoint.toText_eq_snoc (N := N) h
      have hfront : front.length = 12 := by
        rw [hsnoc] at hthirteen
        simpa using hthirteen
      have hleft : (resumptionLayout (other.hostText N) issued' expires ticket)[24]? = some 0 := by
        simp [resumptionLayout, be16, List.getElem?_append, BigEndian.toBE]
        rfl
      have hright : (retryLayout (source.toText N) publicKey nonce issued)[24]? = some b := by
        simp [retryLayout, hsnoc, hfront]
      rw [heq, hright] at hleft
      exact hb (Option.some.inj hleft)

def loopback : Endpoint := .ipv6 Block.loopback6 0 1

/-- An address whose printed form has no abbreviation. -/
def longHost : Endpoint :=
  .ipv6 ⟨[0x20, 0x01, 0x1d, 0xb8] ++ List.replicate 12 0x11, rfl⟩ 0 4433

/-- A public key and a nonce that spell the end of a resumption input for `longHost`. -/
def spelledKeyAndNonce : Bytes :=
  List.replicate 5 0 ++ ([0, 3, 0, 39] ++ ascii "2001:1db8:1111:1111:1111:1111:1111:1111")

/-- With them the retry input for `loopback` is the input of an unexpired resumption token for
`longHost`. -/
theorem retry_input_is_resumption_input :
    resumptionMacInput .standard longHost 1000 0x000300075b3a3a31 0x5d3a310000000000 =
        .ok (retryMacInput .standard loopback ⟨spelledKeyAndNonce.take 32, by decide⟩
          ⟨spelledKeyAndNonce.drop 32, by decide⟩ 1000) ∧
      loopback.IsInet ∧ longHost.IsInet ∧ (1000 : UInt64) < 0x000300075b3a3a31 := by
  decide +kernel

/-- No retry input for `longHost` is a resumption input for `loopback`. -/
theorem macInputs_separated_longHost :
    longHost.IsInet ∧ ∀ publicKey nonce issuedAtMs issuedAtMs' expiresAtMs ticketId,
      resumptionMacInput .standard loopback issuedAtMs' expiresAtMs ticketId ≠
        .ok (retryMacInput .standard longHost publicKey nonce issuedAtMs) :=
  ⟨trivial, (@macInputs_separated_iff .standard longHost loopback trivial).mpr (by decide +kernel)⟩

end SecureCnet
