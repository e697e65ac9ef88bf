import SecureCnet.Wire.Handshake

/-!
# Handshake encodings

The bytes of hellos, tokens and of the transcript. Each reader accepts exactly the
encodings of valid values, and a transcript determines both hellos in it.
-/

namespace SecureCnet

open ByteReader

def RetryToken.encode (token : RetryToken) : Bytes := be64 token.issuedAtMs ++ token.mac.toList

def ResumptionToken.encode (token : ResumptionToken) : Bytes :=
  be64 token.issuedAtMs ++ (be64 token.expiresAtMs ++ (be64 token.ticketId ++ token.mac.toList))

variable {α : Type} {n : ℕ} {r rest r' : Bytes} {token : RetryToken} {flagMsg : String}

/-- A presence flag and the value. -/
def encodeOptional (encode : α → Bytes) : Option α → Bytes
  | none => [0]
  | some a => 1 :: encode a

def ClientHello.encode (hello : ClientHello) : Bytes :=
  HandshakeType.clientHello.code :: (hello.clientPublicKey.toList ++ (hello.clientNonce.toList ++
    (encodeOptional RetryToken.encode hello.retryToken ++
      encodeOptional ResumptionToken.encode hello.resumptionToken)))

def encodeRetry (token : RetryToken) : Bytes := HandshakeType.retry.code :: token.encode

def ServerHello.encode (hello : ServerHello) : Bytes :=
  HandshakeType.serverHello.code :: (be64 hello.serverConnId ++ (hello.serverPublicKey.toList ++
    (hello.serverNonce.toList ++ (hello.transcriptMac.toList ++
      encodeOptional ResumptionToken.encode hello.resumptionToken))))

/-- The part of a transcript that comes from the server. -/
def ServerHello.transcriptPart (hello : ServerHello) : Bytes :=
  be64 hello.serverConnId ++ (hello.serverPublicKey.toList ++ (hello.serverNonce.toList ++
    encodeOptional ResumptionToken.encode hello.resumptionToken))

/-- The transcript of a handshake. -/
def transcript (hello : ClientHello) (serverHello : ServerHello) : Bytes :=
  be16 NetConfig.protocolVersion ++ (hello.clientPublicKey.toList ++ (hello.clientNonce.toList ++
    (encodeOptional RetryToken.encode hello.retryToken ++
      (encodeOptional ResumptionToken.encode hello.resumptionToken ++
        serverHello.transcriptPart))))

/-! ### Writing -/

theorem writeU8_eq (w : ByteWriter) (v : UInt8) : w.writeU8 v = w.writeBytes [v] := by
  simp [ByteWriter.writeU8]

theorem writeRetryToken_eq (w : ByteWriter) (token : RetryToken) :
    writeRetryToken w token = w.writeBytes token.encode := by
  unfold writeRetryToken ByteWriter.writeU64 writeBlock
  rw [ByteWriter.writeBytes_bind]
  rfl

theorem writeResumptionToken_eq (w : ByteWriter) (token : ResumptionToken) :
    writeResumptionToken w token = w.writeBytes token.encode := by
  unfold writeResumptionToken ByteWriter.writeU64 writeBlock
  rw [ByteWriter.writeBytes_bind_bind, ByteWriter.writeBytes_bind_bind, ByteWriter.writeBytes_bind]
  simp [ResumptionToken.encode]

theorem writeOptional_eq {write : ByteWriter → α → Result ByteWriter} {encode : α → Bytes}
    (h : ∀ w a, write w a = w.writeBytes (encode a)) (w : ByteWriter) (a : Option α) :
    writeOptional write w a = w.writeBytes (encodeOptional encode a) := by
  cases a with
  | none => exact writeU8_eq w 0
  | some a =>
    unfold writeOptional
    simp only [h, writeU8_eq]
    rw [ByteWriter.writeBytes_bind]
    rfl

theorem writeClientHello_eq (w : ByteWriter) (hello : ClientHello) :
    writeClientHello w hello = w.writeBytes hello.encode := by
  unfold writeClientHello writeBlock
  simp only [writeOptional_eq writeRetryToken_eq, writeOptional_eq writeResumptionToken_eq,
    writeU8_eq]
  rw [ByteWriter.writeBytes_bind_bind, ByteWriter.writeBytes_bind_bind,
    ByteWriter.writeBytes_bind_bind, ByteWriter.writeBytes_bind]
  simp [ClientHello.encode]

theorem writeRetry_eq (w : ByteWriter) (token : RetryToken) :
    writeRetry w token = w.writeBytes (encodeRetry token) := by
  unfold writeRetry
  simp only [writeRetryToken_eq, writeU8_eq]
  rw [ByteWriter.writeBytes_bind]
  rfl

theorem writeServerHello_eq (w : ByteWriter) (hello : ServerHello) :
    writeServerHello w hello = w.writeBytes hello.encode := by
  unfold writeServerHello writeBlock ByteWriter.writeU64
  simp only [writeOptional_eq writeResumptionToken_eq, writeU8_eq]
  rw [ByteWriter.writeBytes_bind_bind, ByteWriter.writeBytes_bind_bind,
    ByteWriter.writeBytes_bind_bind, ByteWriter.writeBytes_bind_bind, ByteWriter.writeBytes_bind]
  simp [ServerHello.encode]

/-- The transcript is written if it fits. -/
theorem buildTranscriptMacInput_eq (hello : ClientHello) (serverHello : ServerHello) (outCap : ℕ) :
    buildTranscriptMacInput hello serverHello outCap =
      if (transcript hello serverHello).length ≤ outCap then .ok (transcript hello serverHello)
      else fail .truncated "ByteWriter overflow" := by
  unfold buildTranscriptMacInput writeBlock ByteWriter.writeU64 ByteWriter.writeU16
  simp only [writeOptional_eq writeRetryToken_eq, writeOptional_eq writeResumptionToken_eq]
  rw [ByteWriter.writeBytes_bind_bind, ByteWriter.writeBytes_bind_bind,
    ByteWriter.writeBytes_bind_bind, ByteWriter.writeBytes_bind_bind,
    ByteWriter.writeBytes_bind_bind, ByteWriter.writeBytes_bind_bind,
    ByteWriter.writeBytes_bind_bind, ByteWriter.writeBytes_bind_bind, ByteWriter.writeBytes_fresh]
  have hout : be16 NetConfig.protocolVersion ++ hello.clientPublicKey.toList ++
      hello.clientNonce.toList ++ encodeOptional RetryToken.encode hello.retryToken ++
      encodeOptional ResumptionToken.encode hello.resumptionToken ++
      be64 serverHello.serverConnId ++ serverHello.serverPublicKey.toList ++
      serverHello.serverNonce.toList ++
      encodeOptional ResumptionToken.encode serverHello.resumptionToken =
      transcript hello serverHello := by
    simp [transcript, ServerHello.transcriptPart]
  rw [hout]
  split_ifs <;> rfl

theorem buildTranscriptMacInput_eq_ok {hello : ClientHello} {serverHello : ServerHello}
    {outCap : ℕ} {out : Bytes} (h : buildTranscriptMacInput hello serverHello outCap = .ok out) :
    out = transcript hello serverHello := by
  rw [buildTranscriptMacInput_eq] at h
  split_ifs at h
  · cases h
    rfl
  · cases h

/-! ### Reading -/

/-- What the readers ask of a resumption token. -/
def ResumptionToken.Valid (token : ResumptionToken) : Prop :=
  token.ticketId ≠ 0 ∧ token.issuedAtMs < token.expiresAtMs

def ClientHello.Valid (hello : ClientHello) : Prop :=
  ∀ token ∈ hello.resumptionToken, token.Valid

structure ServerHello.Valid (hello : ServerHello) : Prop where
  serverConnId : hello.serverConnId ≠ 0
  resumptionToken : ∀ token ∈ hello.resumptionToken, token.Valid

theorem readBlock_eq_ok {b : Block n} : readBlock n r = .ok (b, rest) ↔ r = b.toList ++ rest := by
  unfold readBlock
  constructor
  · intro h
    split_ifs at h with hn
    · cases h
      exact (List.take_append_drop n r).symm
    · cases h
  · rintro rfl
    have hlen : b.toList.length = n := b.toList_length
    rw [dif_pos (by simp)]
    congr 2
    · exact List.Vector.eq _ _ (List.take_left' hlen)
    · exact List.drop_left' hlen

theorem readRetryToken_eq_ok : readRetryToken r = .ok (token, rest) ↔ r = token.encode ++ rest := by
  unfold readRetryToken
  simp only [Result.bind_eq_ok, Prod.exists, Result.pure_eq, Except.ok.injEq, Prod.mk.injEq,
    readU64_eq_ok, readBlock_eq_ok]
  constructor
  · rintro ⟨issued, r₁, rfl, mac, r₂, rfl, rfl, rfl⟩
    simp [RetryToken.encode]
  · rintro rfl
    exact ⟨_, _, List.append_assoc _ _ _, _, _, rfl, rfl, rfl⟩

theorem readResumptionToken_eq_ok {token : ResumptionToken} :
    readResumptionToken r = .ok (token, rest) ↔ r = token.encode ++ rest ∧ token.Valid := by
  unfold readResumptionToken ResumptionToken.Valid
  simp only [Result.bind_eq_ok, Result.guard_eq_ok, Prod.exists, Result.pure_eq, Except.ok.injEq,
    Prod.mk.injEq, readU64_eq_ok, readBlock_eq_ok, not_or, UInt64.not_le]
  constructor
  · rintro ⟨issued, r₁, rfl, expires, r₂, rfl, ticket, r₃, rfl, mac, r₄, rfl, hvalid, rfl, rfl⟩
    exact ⟨by simp [ResumptionToken.encode], hvalid⟩
  · rintro ⟨rfl, hvalid⟩
    refine ⟨token.issuedAtMs, _, ?_, token.expiresAtMs, _, rfl, token.ticketId, _, rfl, token.mac,
      rest, rfl, hvalid, rfl, rfl⟩
    simp [ResumptionToken.encode]

/-- A value behind a presence flag is read as it was written. -/
theorem readOptional_eq_ok {read : Bytes → Result (α × Bytes)} {encode : α → Bytes}
    {Valid : α → Prop} (hread : ∀ r a rest, read r = .ok (a, rest) ↔ r = encode a ++ rest ∧ Valid a)
    {a : Option α} :
    readOptional flagMsg read r = .ok (a, rest) ↔
      r = encodeOptional encode a ++ rest ∧ ∀ x ∈ a, Valid x := by
  unfold readOptional
  constructor
  · intro h
    obtain ⟨⟨flag, r₁⟩, hflag, h⟩ := Result.bind_eq_ok.mp h
    rw [readU8_eq_ok.mp hflag]
    simp only [Result.guard_eq_ok] at h
    obtain ⟨hle, h⟩ := h
    split_ifs at h with hzero
    · cases h
      rw [hzero]
      exact ⟨rfl, by simp⟩
    · obtain ⟨⟨b, r₂⟩, hb, h⟩ := Result.bind_eq_ok.mp h
      cases h
      have hone : flag = 1 := by
        have hnat : ¬ 1 < flag.toNat := fun hlt => hle (UInt8.lt_iff_toNat_lt.mpr hlt)
        have hne : flag.toNat ≠ 0 := fun h0 => hzero (UInt8.toNat_inj.mp h0)
        apply UInt8.toNat_inj.mp
        change flag.toNat = 1
        omega
      obtain ⟨rfl, hvalid⟩ := (hread r₁ b r₂).mp hb
      rw [hone]
      exact ⟨rfl, by simpa using hvalid⟩
  · rintro ⟨rfl, hvalid⟩
    cases a with
    | none => simp [encodeOptional]
    | some a =>
      have hok := (hread (encode a ++ rest) a rest).mpr ⟨rfl, hvalid a rfl⟩
      simp [encodeOptional, hok]

theorem readRetryTokens_eq_ok {token : Option RetryToken} :
    readOptional flagMsg readRetryToken r = .ok (token, rest) ↔
      r = encodeOptional RetryToken.encode token ++ rest := by
  have hread : ∀ r (a : RetryToken) rest,
      readRetryToken r = .ok (a, rest) ↔ r = a.encode ++ rest ∧ True := by
    intro r a rest
    rw [readRetryToken_eq_ok, and_true]
  rw [readOptional_eq_ok hread]
  simp

theorem readResumptionTokens_eq_ok {token : Option ResumptionToken} :
    readOptional flagMsg readResumptionToken r = .ok (token, rest) ↔
      r = encodeOptional ResumptionToken.encode token ++ rest ∧ ∀ x ∈ token, x.Valid :=
  readOptional_eq_ok fun _ _ _ => readResumptionToken_eq_ok

/-- The reader accepts exactly the encodings of valid client hellos. -/
theorem readClientHello_eq_ok {hello : ClientHello} :
    readClientHello r = .ok hello ↔ r = hello.encode ∧ hello.Valid := by
  unfold readClientHello
  rw [Result.bind_eq_ok]
  simp only [Result.bind_eq_ok, Result.guard_eq_ok, Prod.exists, Result.pure_eq, Except.ok.injEq,
    ne_eq, not_not, readU8_eq_ok, readBlock_eq_ok, readRetryTokens_eq_ok,
    readResumptionTokens_eq_ok, List.length_eq_zero_iff]
  constructor
  · rintro ⟨type, r₁, rfl, rfl, key, r₂, rfl, nonce, r₃, rfl, retry, r₄, rfl, token, r₅,
      ⟨rfl, hvalid⟩, rfl, rfl⟩
    exact ⟨by simp [ClientHello.encode], hvalid⟩
  · rintro ⟨rfl, hvalid⟩
    refine ⟨_, _, rfl, rfl, _, _, rfl, _, _, rfl, _, _, rfl, _, [], ⟨?_, hvalid⟩, rfl, rfl⟩
    exact (List.append_nil _).symm

theorem readRetry_eq_ok : readRetry r = .ok token ↔ r = encodeRetry token := by
  unfold readRetry
  rw [Result.bind_eq_ok]
  simp only [Result.bind_eq_ok, Result.guard_eq_ok, Prod.exists, Result.pure_eq, Except.ok.injEq,
    ne_eq, not_not, readU8_eq_ok, readRetryToken_eq_ok, List.length_eq_zero_iff]
  constructor
  · rintro ⟨type, r₁, rfl, rfl, token', r₂, rfl, rfl, rfl⟩
    simp [encodeRetry]
  · rintro rfl
    exact ⟨_, _, rfl, rfl, _, [], (List.append_nil _).symm, rfl, rfl⟩

/-- The reader accepts exactly the encodings of valid server hellos. -/
theorem readServerHello_eq_ok {hello : ServerHello} :
    readServerHello r = .ok hello ↔ r = hello.encode ∧ hello.Valid := by
  unfold readServerHello
  rw [Result.bind_eq_ok]
  simp only [Result.bind_eq_ok, Result.guard_eq_ok, Prod.exists, Result.pure_eq, Except.ok.injEq,
    ne_eq, not_not, readU8_eq_ok, readU64_eq_ok, readBlock_eq_ok, readResumptionTokens_eq_ok,
    List.length_eq_zero_iff]
  constructor
  · rintro ⟨type, r₁, rfl, rfl, connId, r₂, rfl, key, r₃, rfl, nonce, r₄, rfl, mac, r₅, rfl, token,
      r₆, ⟨rfl, hvalid⟩, hid, rfl, rfl⟩
    exact ⟨by simp [ServerHello.encode], hid, hvalid⟩
  · rintro ⟨rfl, hid, hvalid⟩
    refine ⟨_, _, rfl, rfl, _, _, rfl, _, _, rfl, _, _, rfl, _, _, rfl, _, [], ⟨?_, hvalid⟩, hid,
      rfl, rfl⟩
    exact (List.append_nil _).symm

theorem readCloseFrame_eq_ok {reason : CloseReason} :
    readCloseFrame r = .ok reason ↔ r = be16 reason.code := by
  unfold readCloseFrame
  simp only [Result.bind_eq_ok, Result.guard_eq_ok, Prod.exists, readU16_eq_ok, ne_eq, not_not,
    List.length_eq_zero_iff]
  constructor
  · rintro ⟨-, code, rest, rfl, rfl, h⟩
    cases hcode : CloseReason.ofCode code with
    | none =>
      rw [hcode] at h
      cases h
    | some reason' =>
      rw [hcode] at h
      cases h
      rw [CloseReason.ofCode_eq_some.mp hcode, List.append_nil]
  · rintro rfl
    refine ⟨List.ne_nil_of_length_pos (by simp), reason.code, [], (List.append_nil _).symm, rfl, ?_⟩
    rw [CloseReason.ofCode_code]

/-! ### Encodings determine what they encode -/

theorem RetryToken.length_encode (token : RetryToken) : token.encode.length = 24 := by
  simp [RetryToken.encode]

theorem ResumptionToken.length_encode (token : ResumptionToken) : token.encode.length = 40 := by
  simp [ResumptionToken.encode]

theorem block_append_inj {b b' : Block n} (h : b.toList ++ r = b'.toList ++ r') :
    b = b' ∧ r = r' := by
  obtain ⟨hb, hr⟩ := List.append_inj h (by simp)
  exact ⟨List.Vector.eq b b' hb, hr⟩

theorem be64_append_inj {v v' : UInt64} (h : be64 v ++ r = be64 v' ++ r') : v = v' ∧ r = r' := by
  obtain ⟨hv, hr⟩ := List.append_inj h (by simp)
  exact ⟨be64_inj hv, hr⟩

theorem RetryToken.encode_inj {token' : RetryToken} (h : token.encode = token'.encode) :
    token = token' := by
  obtain ⟨issued, mac⟩ := token
  obtain ⟨issued', mac'⟩ := token'
  obtain ⟨rfl, h⟩ := be64_append_inj h
  rw [List.Vector.eq mac mac' h]

theorem ResumptionToken.encode_inj {token token' : ResumptionToken}
    (h : token.encode = token'.encode) : token = token' := by
  obtain ⟨issued, expires, ticket, mac⟩ := token
  obtain ⟨issued', expires', ticket', mac'⟩ := token'
  obtain ⟨rfl, h⟩ := be64_append_inj h
  obtain ⟨rfl, h⟩ := be64_append_inj h
  obtain ⟨rfl, h⟩ := be64_append_inj h
  rw [List.Vector.eq mac mac' h]

/-- The flag says whether the value follows, and the value has a fixed length. -/
theorem encodeOptional_append_inj {encode : α → Bytes} (hlen : ∀ a, (encode a).length = n)
    (hinj : ∀ a b, encode a = encode b → a = b) {a b : Option α}
    (h : encodeOptional encode a ++ r = encodeOptional encode b ++ r') : a = b ∧ r = r' := by
  cases a with
  | none =>
    cases b with
    | none => exact ⟨rfl, List.append_cancel_left h⟩
    | some b => exact absurd (List.cons.inj h).1 (by decide)
  | some a =>
    cases b with
    | none => exact absurd (List.cons.inj h).1 (by decide)
    | some b =>
      obtain ⟨hab, hr⟩ := List.append_inj (List.cons.inj h).2 (by rw [hlen, hlen])
      rw [hinj a b hab]
      exact ⟨rfl, hr⟩

theorem encodeRetryToken_append_inj {a b : Option RetryToken}
    (h : encodeOptional RetryToken.encode a ++ r = encodeOptional RetryToken.encode b ++ r') :
    a = b ∧ r = r' :=
  encodeOptional_append_inj RetryToken.length_encode (fun _ _ => RetryToken.encode_inj) h

theorem encodeResumptionToken_append_inj {a b : Option ResumptionToken} (h : encodeOptional
      ResumptionToken.encode a ++ r = encodeOptional ResumptionToken.encode b ++ r') :
    a = b ∧ r = r' :=
  encodeOptional_append_inj ResumptionToken.length_encode (fun _ _ => ResumptionToken.encode_inj) h

theorem ServerHello.encode_inj {hello hello' : ServerHello} (h : hello.encode = hello'.encode) :
    hello = hello' := by
  obtain ⟨connId, key, nonce, mac, token⟩ := hello
  obtain ⟨connId', key', nonce', mac', token'⟩ := hello'
  obtain ⟨rfl, h⟩ := be64_append_inj (List.cons.inj h).2
  obtain ⟨rfl, h⟩ := block_append_inj h
  obtain ⟨rfl, h⟩ := block_append_inj h
  obtain ⟨rfl, h⟩ := block_append_inj h
  obtain ⟨rfl, -⟩ := encodeResumptionToken_append_inj (congrArg (· ++ []) h)
  rfl

theorem ServerHello.transcriptPart_inj {hello hello' : ServerHello}
    (h : hello.transcriptPart = hello'.transcriptPart) :
    hello = { hello' with transcriptMac := hello.transcriptMac } := by
  obtain ⟨connId, key, nonce, mac, token⟩ := hello
  obtain ⟨connId', key', nonce', mac', token'⟩ := hello'
  obtain ⟨rfl, h⟩ := be64_append_inj h
  obtain ⟨rfl, h⟩ := block_append_inj h
  obtain ⟨rfl, h⟩ := block_append_inj h
  obtain ⟨rfl, -⟩ := encodeResumptionToken_append_inj (congrArg (· ++ []) h)
  rfl

theorem transcript_inj {hello hello' : ClientHello} {serverHello serverHello' : ServerHello}
    (h : transcript hello serverHello = transcript hello' serverHello') :
    hello = hello' ∧ serverHello.transcriptPart = serverHello'.transcriptPart := by
  obtain ⟨key, nonce, retry, resumption⟩ := hello
  obtain ⟨key', nonce', retry', resumption'⟩ := hello'
  obtain ⟨rfl, h₁⟩ := block_append_inj (List.append_cancel_left h)
  obtain ⟨rfl, h₂⟩ := block_append_inj h₁
  obtain ⟨rfl, h₃⟩ := encodeRetryToken_append_inj h₂
  obtain ⟨rfl, h₄⟩ := encodeResumptionToken_append_inj h₃
  exact ⟨rfl, h₄⟩

theorem encodeOptional_length_le {encode : α → Bytes} (hlen : ∀ a, (encode a).length = n)
    (a : Option α) : (encodeOptional encode a).length ≤ n + 1 := by
  cases a with
  | none => simp [encodeOptional]
  | some a => simp [encodeOptional, hlen]

theorem length_transcript_le (hello : ClientHello) (serverHello : ServerHello) :
    (transcript hello serverHello).length ≤ 320 := by
  have hretry := encodeOptional_length_le RetryToken.length_encode hello.retryToken
  have hclient := encodeOptional_length_le ResumptionToken.length_encode hello.resumptionToken
  have hserver := encodeOptional_length_le ResumptionToken.length_encode
    serverHello.resumptionToken
  simp only [transcript, ServerHello.transcriptPart, List.length_append, List.Vector.toList_length,
    length_be16, length_be64]
  omega

/-! ### Codecs -/

/-- A writer and a reader that are inverse to each other between the valid values and the strings
the reader accepts. -/
structure Inverse {α : Type} (write : ByteWriter → α → Result ByteWriter)
    (read : Bytes → Result α) (Valid : α → Prop) : Prop where
  writable : ∀ a, ∃ b : Bytes, ∀ cap, b.length ≤ cap → write ⟨cap, []⟩ a = .ok ⟨cap, b⟩
  read_write : ∀ a cap w, Valid a → write ⟨cap, []⟩ a = .ok w → read w.out = .ok a
  write_read : ∀ b a cap, read b = .ok a → b.length ≤ cap → write ⟨cap, []⟩ a = .ok ⟨cap, b⟩
  valid : ∀ b a, read b = .ok a → Valid a

theorem inverse_of_encode {write : ByteWriter → α → Result ByteWriter} {read : Bytes → Result α}
    {Valid : α → Prop} {encode : α → Bytes} (hwrite : ∀ w a, write w a = w.writeBytes (encode a))
    (hread : ∀ b a, read b = .ok a ↔ b = encode a ∧ Valid a) : Inverse write read Valid where
  writable a := by
    refine ⟨encode a, fun cap hcap => ?_⟩
    rw [hwrite, ByteWriter.writeBytes_fresh, if_pos hcap]
  read_write a cap w ha hw := by
    rw [hwrite, ByteWriter.writeBytes_fresh] at hw
    split_ifs at hw
    · cases hw
      exact (hread _ a).mpr ⟨rfl, ha⟩
    · cases hw
  write_read b a cap hb hcap := by
    obtain ⟨rfl, -⟩ := (hread b a).mp hb
    rw [hwrite, ByteWriter.writeBytes_fresh, if_pos hcap]
  valid b a hb := ((hread b a).mp hb).2

/-- The handshake and close codecs are bijections onto what their readers accept, and the type
byte keeps the three handshake languages apart. -/
theorem handshake_codecs_bijective :
    Inverse writeClientHello readClientHello ClientHello.Valid ∧
    Inverse writeRetry readRetry (fun _ => True) ∧
    Inverse writeServerHello readServerHello ServerHello.Valid ∧
    Inverse writeCloseFrame readCloseFrame (fun _ => True) ∧
    ∀ b : Bytes,
      ¬((∃ hello, readClientHello b = .ok hello) ∧ ∃ token, readRetry b = .ok token) ∧
      ¬((∃ hello, readClientHello b = .ok hello) ∧ ∃ hello, readServerHello b = .ok hello) ∧
      ¬((∃ token, readRetry b = .ok token) ∧ ∃ hello, readServerHello b = .ok hello) := by
  refine ⟨?_, ?_, ?_, ?_, ?_⟩
  · exact inverse_of_encode writeClientHello_eq fun _ _ => readClientHello_eq_ok
  · apply inverse_of_encode writeRetry_eq
    intro b token
    rw [readRetry_eq_ok, and_true]
  · exact inverse_of_encode writeServerHello_eq fun _ _ => readServerHello_eq_ok
  · apply inverse_of_encode (fun w reason => (rfl : writeCloseFrame w reason = w.writeBytes _))
    intro b reason
    rw [readCloseFrame_eq_ok, and_true]
  · intro b
    have hclient : ∀ {hello}, readClientHello b = .ok hello → b.head? = some 1 := by
      intro hello h
      rw [(readClientHello_eq_ok.mp h).1]
      rfl
    have hretry : ∀ {token}, readRetry b = .ok token → b.head? = some 2 := by
      intro token h
      rw [readRetry_eq_ok.mp h]
      rfl
    have hserver : ∀ {hello}, readServerHello b = .ok hello → b.head? = some 3 := by
      intro hello h
      rw [(readServerHello_eq_ok.mp h).1]
      rfl
    refine ⟨?_, ?_, ?_⟩
    · rintro ⟨⟨_, h⟩, ⟨_, h'⟩⟩
      exact absurd ((hclient h).symm.trans (hretry h')) (by decide)
    · rintro ⟨⟨_, h⟩, ⟨_, h'⟩⟩
      exact absurd ((hclient h).symm.trans (hserver h')) (by decide)
    · rintro ⟨⟨_, h⟩, ⟨_, h'⟩⟩
      exact absurd ((hretry h).symm.trans (hserver h')) (by decide)

/-- A hello with a resumption token. -/
def resuming : ClientHello := ⟨Block.zero 32, Block.zero 16, none, some ⟨5, 60005, 9, Block.zero 16⟩⟩

theorem resuming_read_back :
    ∃ w, writeClientHello ⟨200, []⟩ resuming = .ok w ∧ readClientHello w.out = .ok resuming :=
  ⟨⟨200, resuming.encode⟩, rfl, handshake_codecs_bijective.1.read_write resuming 200 _
    (by rintro token ⟨⟩; exact ⟨by decide, by decide⟩) rfl⟩

/-! ### The two transcript encoders

Each side has its own function. They read the records of the source, which keep a token next to
its flag whether or not the flag is set. -/

structure ClientHelloRecord where
  clientPublicKey : Block 32
  clientNonce : Block 16
  hasRetryToken : Bool
  retryToken : RetryToken
  hasResumptionToken : Bool
  resumptionToken : ResumptionToken
  deriving DecidableEq, Repr

structure ServerHelloRecord where
  serverConnId : UInt64
  serverPublicKey : Block 32
  serverNonce : Block 16
  transcriptMac : Block 16
  hasResumptionToken : Bool
  resumptionToken : ResumptionToken
  deriving DecidableEq, Repr

/-- A write that is made only if the flag is set. -/
def writeIf (flag : Bool) (write : ByteWriter → α → Result ByteWriter) (w : ByteWriter) (a : α) :
    Result ByteWriter :=
  if flag then write w a else .ok w

/-- `build_transcript_mac_input` of the client. -/
def buildTranscriptMacInputClient (hello : ClientHelloRecord) (serverHello : ServerHelloRecord)
    (outCap : ℕ) : Result Bytes := do
  let w ← ByteWriter.writeU16 ⟨outCap, []⟩ NetConfig.protocolVersion
  let w ← writeBlock w hello.clientPublicKey
  let w ← writeBlock w hello.clientNonce
  let w ← w.writeU8 (if hello.hasRetryToken then 1 else 0)
  let w ← writeIf hello.hasRetryToken writeRetryToken w hello.retryToken
  let w ← w.writeU8 (if hello.hasResumptionToken then 1 else 0)
  let w ← writeIf hello.hasResumptionToken writeResumptionToken w hello.resumptionToken
  let w ← w.writeU64 serverHello.serverConnId
  let w ← writeBlock w serverHello.serverPublicKey
  let w ← writeBlock w serverHello.serverNonce
  let w ← w.writeU8 (if serverHello.hasResumptionToken then 1 else 0)
  let w ← writeIf serverHello.hasResumptionToken writeResumptionToken w serverHello.resumptionToken
  return w.out

/-- `build_transcript_mac_input` of the server. -/
def buildTranscriptMacInputServer (hello : ClientHelloRecord) (serverHello : ServerHelloRecord)
    (outCap : ℕ) : Result Bytes := do
  let w ← ByteWriter.writeU16 ⟨outCap, []⟩ NetConfig.protocolVersion
  let w ← writeBlock w hello.clientPublicKey
  let w ← writeBlock w hello.clientNonce
  let w ← w.writeU8 (if hello.hasRetryToken then 1 else 0)
  let w ← writeIf hello.hasRetryToken writeRetryToken w hello.retryToken
  let w ← w.writeU8 (if hello.hasResumptionToken then 1 else 0)
  let w ← writeIf hello.hasResumptionToken writeResumptionToken w hello.resumptionToken
  let w ← w.writeU64 serverHello.serverConnId
  let w ← writeBlock w serverHello.serverPublicKey
  let w ← writeBlock w serverHello.serverNonce
  let w ← w.writeU8 (if serverHello.hasResumptionToken then 1 else 0)
  let w ← writeIf serverHello.hasResumptionToken writeResumptionToken w serverHello.resumptionToken
  return w.out

/-- A flag and a token as an optional token. -/
def flagged (flag : Bool) (token : α) : Option α := if flag then some token else none

/-- The hello without the tokens that are not there. -/
def ClientHelloRecord.hello (r : ClientHelloRecord) : ClientHello :=
  ⟨r.clientPublicKey, r.clientNonce, flagged r.hasRetryToken r.retryToken,
    flagged r.hasResumptionToken r.resumptionToken⟩

def ServerHelloRecord.hello (r : ServerHelloRecord) : ServerHello :=
  ⟨r.serverConnId, r.serverPublicKey, r.serverNonce, r.transcriptMac,
    flagged r.hasResumptionToken r.resumptionToken⟩

def RetryToken.zero : RetryToken := ⟨0, Block.zero 16⟩
def ResumptionToken.zero : ResumptionToken := ⟨0, 0, 0, Block.zero 16⟩

/-- Tokens that are not there have their default value. -/
structure ClientHelloRecord.Tidy (r : ClientHelloRecord) : Prop where
  retryToken : r.hasRetryToken = false → r.retryToken = .zero
  resumptionToken : r.hasResumptionToken = false → r.resumptionToken = .zero

structure ServerHelloRecord.Tidy (r : ServerHelloRecord) : Prop where
  resumptionToken : r.hasResumptionToken = false → r.resumptionToken = .zero

theorem flagged_inj {flag flag' : Bool} {token token' default : α}
    (h : flagged flag token = flagged flag' token') (hdef : flag = false → token = default)
    (hdef' : flag' = false → token' = default) : flag = flag' ∧ token = token' := by
  cases flag with
  | false =>
    cases flag' with
    | false => exact ⟨rfl, (hdef rfl).trans (hdef' rfl).symm⟩
    | true => cases h
  | true =>
    cases flag' with
    | false => cases h
    | true => exact ⟨rfl, Option.some.inj h⟩

theorem writeIf_bind {β : Type} (write : ByteWriter → α → Result ByteWriter) (w : ByteWriter)
    (flag : Bool) (token : α) (k : ByteWriter → Result β) :
    (w.writeU8 (if flag then 1 else 0) >>= fun w => writeIf flag write w token >>= k) =
      writeOptional write w (flagged flag token) >>= k := by
  cases flag with
  | false =>
    cases h : w.writeU8 0 with
    | error e => simp [flagged, writeOptional, h]
    | ok w' => simp [flagged, writeOptional, writeIf, h]
  | true =>
    cases h : w.writeU8 1 with
    | error e => simp [flagged, writeOptional, h]
    | ok w' => simp [flagged, writeOptional, writeIf, h]

theorem buildTranscriptMacInputClient_eq (hello : ClientHelloRecord)
    (serverHello : ServerHelloRecord) (outCap : ℕ) :
    buildTranscriptMacInputClient hello serverHello outCap =
      buildTranscriptMacInput hello.hello serverHello.hello outCap := by
  unfold buildTranscriptMacInputClient
  simp only [writeIf_bind]
  rfl

theorem buildTranscriptMacInputServer_eq (hello : ClientHelloRecord)
    (serverHello : ServerHelloRecord) (outCap : ℕ) :
    buildTranscriptMacInputServer hello serverHello outCap =
      buildTranscriptMacInput hello.hello serverHello.hello outCap := by
  unfold buildTranscriptMacInputServer
  simp only [writeIf_bind]
  rfl

/-- Both sides write the same transcript for every pair of hellos, and it determines every field
but the MAC that is computed from it. -/
theorem transcripts_agree_injective :
    (∀ (hello : ClientHelloRecord) (serverHello : ServerHelloRecord), ∃ b : Bytes, b.length ≤ 320 ∧
      buildTranscriptMacInputClient hello serverHello 320 = .ok b ∧
      buildTranscriptMacInputServer hello serverHello 320 = .ok b) ∧
    ∀ (hello hello' : ClientHelloRecord) (serverHello serverHello' : ServerHelloRecord),
      hello.Tidy → hello'.Tidy → serverHello.Tidy → serverHello'.Tidy →
      buildTranscriptMacInputClient hello serverHello 320 =
        buildTranscriptMacInputServer hello' serverHello' 320 →
      hello = hello' ∧
        serverHello = { serverHello' with transcriptMac := serverHello.transcriptMac } := by
  have hbuild : ∀ (hello : ClientHello) (serverHello : ServerHello),
      buildTranscriptMacInput hello serverHello 320 = .ok (transcript hello serverHello) := by
    intro hello serverHello
    rw [buildTranscriptMacInput_eq, if_pos (length_transcript_le hello serverHello)]
  simp only [buildTranscriptMacInputClient_eq, buildTranscriptMacInputServer_eq, hbuild]
  constructor
  · intro hello serverHello
    exact ⟨_, length_transcript_le hello.hello serverHello.hello, rfl, rfl⟩
  · intro hello hello' serverHello serverHello' ht ht' hs hs' heq
    obtain ⟨hclient, hpart⟩ := transcript_inj (Except.ok.inj heq)
    have hserver := ServerHello.transcriptPart_inj hpart
    obtain ⟨key, nonce, hasRetry, retry, hasToken, token⟩ := hello
    obtain ⟨key', nonce', hasRetry', retry', hasToken', token'⟩ := hello'
    obtain ⟨connId, skey, snonce, mac, hasServer, server⟩ := serverHello
    obtain ⟨connId', skey', snonce', mac', hasServer', server'⟩ := serverHello'
    simp only [ClientHelloRecord.hello, ClientHello.mk.injEq] at hclient
    simp only [ServerHelloRecord.hello, ServerHello.mk.injEq, true_and] at hserver
    obtain ⟨rfl, rfl, hretry, htoken⟩ := hclient
    obtain ⟨rfl, rfl, rfl, hserver⟩ := hserver
    obtain ⟨rfl, rfl⟩ := flagged_inj hretry ht.retryToken ht'.retryToken
    obtain ⟨rfl, rfl⟩ := flagged_inj htoken ht.resumptionToken ht'.resumptionToken
    obtain ⟨rfl, rfl⟩ := flagged_inj hserver hs.resumptionToken hs'.resumptionToken
    exact ⟨rfl, rfl⟩

/-- A hello without tokens, the same one with a retry token, and an answer. -/
def sampleHello : ClientHelloRecord :=
  ⟨Block.zero 32, Block.zero 16, false, .zero, false, .zero⟩

def secondHello : ClientHelloRecord := { sampleHello with hasRetryToken := true }

def firstAnswer : ServerHelloRecord :=
  ⟨7, Block.zero 32, Block.zero 16, Block.zero 16, false, .zero⟩

/-- Whether a token is there shows in the transcript, even if the token is all zero. -/
theorem presence_in_transcript :
    sampleHello.Tidy ∧ secondHello.Tidy ∧ firstAnswer.Tidy ∧
      buildTranscriptMacInputClient sampleHello firstAnswer 320 ≠
        buildTranscriptMacInputServer secondHello firstAnswer 320 := by
  have h₁ : sampleHello.Tidy := ⟨fun _ => rfl, fun _ => rfl⟩
  have h₂ : secondHello.Tidy := ⟨fun _ => rfl, fun _ => rfl⟩
  have h₃ : firstAnswer.Tidy := ⟨fun _ => rfl⟩
  refine ⟨h₁, h₂, h₃, fun h => ?_⟩
  have heq := (transcripts_agree_injective.2 _ _ _ _ h₁ h₂ h₃ h₃ h).1
  exact absurd (congrArg ClientHelloRecord.hasRetryToken heq) (by decide)

end SecureCnet
