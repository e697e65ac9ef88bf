import SecureCnet.Wire.ByteBuf

/-!
# Byte streams over the ordered channel

A stream is cut into frames `[stream id][flags][length][bytes]`, each small enough for
one ordered message; the last one carries the FIN flag. The receiver collects the bytes
of one stream until it is finished.
-/

namespace SecureCnet

open ByteReader

def streamFlagFin : UInt8 := 0x01

/-- The length of the source's view is the length of its data. -/
structure StreamFrameView where
  streamId : UInt16
  flags : UInt8
  data : Bytes
  deriving DecidableEq, Repr

def streamFrameHeaderBytes : ℕ := 5

def maxStreamFramePayload : ℕ := NetConfig.maxOrderedMessageBytes - streamFrameHeaderBytes

theorem maxStreamFramePayload_eq : maxStreamFramePayload = 1231 := rfl

def writeStreamFrame (w : ByteWriter) (streamId : UInt16) (flags : UInt8) (data : Bytes) :
    Result ByteWriter :=
  if streamId = 0 then fail .invalidArg "stream_id must be non-zero"
  else if maxStreamFramePayload < data.length then
    fail .tooLarge "stream frame payload exceeds ordered channel budget"
  else do
    let w ← w.writeU16 streamId
    let w ← w.writeU8 flags
    let w ← w.writeU16 (UInt16.ofNat data.length)
    w.writeBytes data

def readStreamFrame (r : Bytes) : Result StreamFrameView := do
  let (streamId, r) ← readU16 r
  let (flags, r) ← readU8 r
  let (len, r) ← readU16 r
  if streamId = 0 then fail .badPacket "stream_id must be non-zero"
  else if maxStreamFramePayload < len.toNat then
    fail .badPacket "stream frame payload exceeds ordered channel budget"
  else if r.length < len.toNat then fail .truncated "truncated stream frame payload"
  else do
    let (data, r) ← readBytes len.toNat r
    if r.length ≠ 0 then fail .badPacket "extra bytes in stream frame"
    else return ⟨streamId, flags, data⟩

section Chunking

variable {σ : Type} (emit : Bytes → Bool → σ → Result Unit × σ) (streamId : UInt16)
  (finalFlags : UInt8)

/-- Write one frame into a buffer of `cap` bytes and hand it over. -/
def emitFrame (cap : ℕ) (flags : UInt8) (data : Bytes) (last : Bool) (s : σ) : Result Unit × σ :=
  match writeStreamFrame ⟨cap, []⟩ streamId flags data with
  | .error e => (.error e, s)
  | .ok w => emit w.out last s

/-- The loop of `chunk_stream_bytes` on the bytes from the current offset on. -/
def chunkLoop (rest : Bytes) (s : σ) : Result Unit × σ :=
  if rest = [] then (.ok (), s)
  else
    let last : Bool := rest.length ≤ maxStreamFramePayload
    match emitFrame emit streamId NetConfig.maxOrderedMessageBytes (if last then finalFlags else 0)
        (rest.take maxStreamFramePayload) last s with
    | (.error e, s) => (.error e, s)
    | (.ok (), s) => chunkLoop (rest.drop maxStreamFramePayload) s
  termination_by rest.length
  decreasing_by
    have := List.length_pos_iff.mpr ‹rest ≠ []›
    simp only [List.length_drop, maxStreamFramePayload_eq]
    omega

def chunkStreamBytes (bytes : Bytes) (s : σ) : Result Unit × σ :=
  if streamId = 0 then (fail .invalidArg "stream_id must be non-zero", s)
  else if bytes = [] then emitFrame emit streamId streamFrameHeaderBytes finalFlags [] true s
  else chunkLoop emit streamId finalFlags bytes s

end Chunking

structure StreamReceiveBuffer where
  streamId : UInt16 := 0
  finished : Bool := false
  bytes : Bytes := []
  deriving DecidableEq, Repr

namespace StreamReceiveBuffer

def append (frame : StreamFrameView) (buf : StreamReceiveBuffer) :
    Result Unit × StreamReceiveBuffer :=
  if buf.streamId ≠ 0 ∧ buf.streamId ≠ frame.streamId then
    (fail .badPacket "mixed stream ids in receive buffer", buf)
  else
    let buf := if buf.streamId = 0 then { buf with streamId := frame.streamId } else buf
    if buf.finished then (fail .stateError "stream already finished", buf)
    else if 0xFFFFFFFF < buf.bytes.length + frame.data.length then
      (fail .tooLarge "stream receive buffer exceeded maximum size", buf)
    else
      (.ok (), { buf with
        bytes := buf.bytes ++ frame.data
        finished := frame.flags &&& streamFlagFin ≠ 0 })

/-- Read frames and append them, up to the first error. -/
def appendAll : List Bytes → StreamReceiveBuffer → Result StreamReceiveBuffer
  | [], buf => .ok buf
  | bytes :: rest, buf => do
    let frame ← readStreamFrame bytes
    match buf.append frame with
    | (.error e, _) => .error e
    | (.ok (), buf) => appendAll rest buf

/-- The buffers that decoded frames lead to. -/
inductive Reached : StreamReceiveBuffer → Prop
  | fresh : Reached {}
  | append {buf : StreamReceiveBuffer} {bytes : Bytes} {frame : StreamFrameView} :
      Reached buf → readStreamFrame bytes = .ok frame → Reached (buf.append frame).2

end StreamReceiveBuffer

/-! ### Frames -/

namespace StreamFrameView

def encode (frame : StreamFrameView) : Bytes :=
  be16 frame.streamId ++ frame.flags :: (be16 (UInt16.ofNat frame.data.length) ++ frame.data)

structure Valid (frame : StreamFrameView) : Prop where
  streamId : frame.streamId ≠ 0
  length : frame.data.length ≤ maxStreamFramePayload

theorem length_encode (frame : StreamFrameView) :
    frame.encode.length = streamFrameHeaderBytes + frame.data.length := by
  simp [encode, streamFrameHeaderBytes]
  omega

end StreamFrameView

theorem writeStreamFrame_fresh {frame : StreamFrameView} (h : frame.Valid) {cap : ℕ}
    (hcap : streamFrameHeaderBytes + frame.data.length ≤ cap) :
    writeStreamFrame ⟨cap, []⟩ frame.streamId frame.flags frame.data = .ok ⟨cap, frame.encode⟩ := by
  have hwrite : writeStreamFrame ⟨cap, []⟩ frame.streamId frame.flags frame.data =
      (⟨cap, []⟩ : ByteWriter).writeBytes frame.encode := by
    rw [writeStreamFrame, if_neg h.streamId, if_neg (Nat.not_lt.mpr h.length)]
    unfold ByteWriter.writeU8 ByteWriter.writeU16
    rw [ByteWriter.writeBytes_bind_bind, ByteWriter.writeBytes_bind_bind,
      ByteWriter.writeBytes_bind]
    simp [StreamFrameView.encode]
  rw [hwrite, ByteWriter.writeBytes_fresh, if_pos]
  rwa [StreamFrameView.length_encode]

theorem readStreamFrame_encode {frame : StreamFrameView} (h : frame.Valid) :
    readStreamFrame frame.encode = .ok frame := by
  have hshort := h.length
  rw [maxStreamFramePayload_eq] at hshort
  have hlen : (UInt16.ofNat frame.data.length).toNat = frame.data.length := by
    rw [UInt16.toNat_ofNat', Nat.mod_eq_of_lt (by omega)]
  unfold readStreamFrame
  simp only [StreamFrameView.encode, readU16_append, readU8_cons, Result.ok_bind, hlen]
  rw [if_neg h.streamId, if_neg (Nat.not_lt.mpr h.length), if_neg (Nat.lt_irrefl _),
    readBytes_self]
  rfl

theorem valid_of_readStreamFrame {bytes : Bytes} {frame : StreamFrameView}
    (h : readStreamFrame bytes = .ok frame) : frame.Valid := by
  unfold readStreamFrame at h
  simp only [Result.bind_eq_ok, Result.guard_eq_ok, Prod.exists] at h
  obtain ⟨id, r₁, -, flags, r₂, -, len, r₃, -, hid, hlen, -, data, r₄, hdata, -, hframe⟩ := h
  cases hframe
  exact ⟨hid, (readBytes_eq_ok.mp hdata).2 ▸ Nat.not_lt.mp hlen⟩

/-! ### Chunks -/

/-- Keep every frame with the word whether it is the last. -/
def record (frame : Bytes) (last : Bool) (sent : List (Bytes × Bool)) :
    Result Unit × List (Bytes × Bool) :=
  (.ok (), sent ++ [(frame, last)])

/-- The bytes in pieces: full ones without flags, and one with the final flags. -/
def framesOf (streamId : UInt16) (finalFlags : UInt8) (pieces : List Bytes) (final : Bytes) :
    List (Bytes × Bool) :=
  pieces.map (fun data => (StreamFrameView.encode ⟨streamId, 0, data⟩, false)) ++
    [(StreamFrameView.encode ⟨streamId, finalFlags, final⟩, true)]

variable {streamId : UInt16} {finalFlags : UInt8}

theorem emitFrame_record (hid : streamId ≠ 0) {cap : ℕ} {flags : UInt8} {data : Bytes}
    (hlen : data.length ≤ maxStreamFramePayload) (hcap : streamFrameHeaderBytes + data.length ≤ cap)
    (last : Bool) (sent : List (Bytes × Bool)) :
    emitFrame record streamId cap flags data last sent =
      (.ok (), sent ++ [(StreamFrameView.encode ⟨streamId, flags, data⟩, last)]) := by
  have hvalid : StreamFrameView.Valid ⟨streamId, flags, data⟩ := ⟨hid, hlen⟩
  unfold emitFrame
  rw [writeStreamFrame_fresh hvalid hcap]
  rfl

theorem chunkLoop_record (hid : streamId ≠ 0) (rest : Bytes) (hne : rest ≠ [])
    (sent : List (Bytes × Bool)) :
    ∃ pieces final, chunkLoop record streamId finalFlags rest sent =
        (.ok (), sent ++ framesOf streamId finalFlags pieces final) ∧
      (∀ data ∈ pieces, data.length ≤ maxStreamFramePayload) ∧
      final.length ≤ maxStreamFramePayload ∧ pieces.flatten ++ final = rest := by
  induction hn : rest.length using Nat.strong_induction_on generalizing rest sent with
  | _ n ih =>
    subst hn
    have htake : (rest.take maxStreamFramePayload).length ≤ maxStreamFramePayload :=
      List.length_take_le _ _
    have hcap : streamFrameHeaderBytes + (rest.take maxStreamFramePayload).length ≤
        NetConfig.maxOrderedMessageBytes := by
      simp only [streamFrameHeaderBytes, maxStreamFramePayload_eq,
        NetConfig.maxOrderedMessageBytes_eq] at htake ⊢
      omega
    rw [chunkLoop, if_neg hne]
    simp only [emitFrame_record hid htake hcap]
    by_cases hlast : rest.length ≤ maxStreamFramePayload
    · refine ⟨[], rest, ?_, by simp, hlast, rfl⟩
      rw [List.drop_eq_nil_of_le hlast, List.take_of_length_le hlast, chunkLoop, if_pos rfl]
      simp [framesOf, hlast]
    · have hshort : (rest.drop maxStreamFramePayload).length = _ := List.length_drop
      rw [maxStreamFramePayload_eq] at hlast hshort
      obtain ⟨pieces, final, hloop, hpieces, hfinal, hbytes⟩ := ih _ (by
          rw [maxStreamFramePayload_eq, hshort]
          omega) (rest.drop maxStreamFramePayload)
        (by rw [maxStreamFramePayload_eq, Ne, ← List.length_eq_zero_iff]; omega)
        (sent ++ [(StreamFrameView.encode ⟨streamId, 0, rest.take maxStreamFramePayload⟩, false)])
        rfl
      refine ⟨rest.take maxStreamFramePayload :: pieces, final, ?_, ?_, hfinal, ?_⟩
      · simp only [maxStreamFramePayload_eq] at hloop ⊢
        simp [hlast, hloop, framesOf]
      · exact List.forall_mem_cons.mpr ⟨htake, hpieces⟩
      · rw [List.flatten_cons, List.append_assoc, hbytes, List.take_append_drop]

theorem chunkStreamBytes_record (hid : streamId ≠ 0) (bytes : Bytes) :
    ∃ pieces final, chunkStreamBytes record streamId finalFlags bytes [] =
        (.ok (), framesOf streamId finalFlags pieces final) ∧
      (∀ data ∈ pieces, data.length ≤ maxStreamFramePayload) ∧
      final.length ≤ maxStreamFramePayload ∧ pieces.flatten ++ final = bytes := by
  rw [chunkStreamBytes, if_neg hid]
  split_ifs with hempty
  · refine ⟨[], [], ?_, by simp, Nat.zero_le _, hempty.symm⟩
    exact emitFrame_record hid (Nat.zero_le _) (Nat.le_refl _) true []
  · exact chunkLoop_record hid bytes hempty []

/-! ### Receiving -/

namespace StreamReceiveBuffer

variable {buf : StreamReceiveBuffer} {frame : StreamFrameView}

theorem append_of_open (hid : buf.streamId = 0 ∨ buf.streamId = frame.streamId)
    (hopen : buf.finished = false) (hlen : buf.bytes.length + frame.data.length < 2 ^ 32) :
    buf.append frame = (.ok (), ⟨frame.streamId, frame.flags &&& streamFlagFin ≠ 0,
      buf.bytes ++ frame.data⟩) := by
  have hfits : ¬0xFFFFFFFF < buf.bytes.length + frame.data.length := by omega
  unfold append
  rcases hid with hid | hid
  · simp [hid, hopen, hfits]
  · by_cases hzero : frame.streamId = 0 <;> simp [hid, hzero, hopen, hfits]

theorem appendAll_cons (hframe : frame.Valid)
    (hid : buf.streamId = 0 ∨ buf.streamId = frame.streamId) (hopen : buf.finished = false)
    (hlen : buf.bytes.length + frame.data.length < 2 ^ 32) (rest : List Bytes) :
    buf.appendAll (frame.encode :: rest) =
      appendAll rest ⟨frame.streamId, frame.flags &&& streamFlagFin ≠ 0,
        buf.bytes ++ frame.data⟩ := by
  rw [appendAll, readStreamFrame_encode hframe, Result.ok_bind, append_of_open hid hopen hlen]

theorem appendAll_framesOf (hid : streamId ≠ 0) {pieces : List Bytes} {final : Bytes}
    (hpieces : ∀ data ∈ pieces, data.length ≤ maxStreamFramePayload)
    (hfinal : final.length ≤ maxStreamFramePayload)
    (hbuf : buf.streamId = 0 ∨ buf.streamId = streamId) (hopen : buf.finished = false)
    (hlen : buf.bytes.length + (pieces.flatten ++ final).length < 2 ^ 32) :
    buf.appendAll ((framesOf streamId finalFlags pieces final).map Prod.fst) =
      .ok ⟨streamId, finalFlags &&& streamFlagFin ≠ 0, buf.bytes ++ (pieces.flatten ++ final)⟩ := by
  have hvalid : ∀ (flags : UInt8) (data : Bytes), data.length ≤ maxStreamFramePayload →
      StreamFrameView.Valid ⟨streamId, flags, data⟩ := fun flags data hdata => ⟨hid, hdata⟩
  induction pieces generalizing buf with
  | nil => exact appendAll_cons (hvalid finalFlags final hfinal) hbuf hopen hlen []
  | cons data pieces ih =>
    obtain ⟨hdata, hrest⟩ := List.forall_mem_cons.mp hpieces
    simp only [List.flatten_cons, List.append_assoc, List.length_append] at hlen ⊢
    apply (appendAll_cons (hvalid 0 data hdata) hbuf hopen (by dsimp only; omega) _).trans
    have hnext := @ih ⟨streamId, false, buf.bytes ++ data⟩ hrest (Or.inr rfl) rfl
      (by simp only [List.length_append]; omega)
    simpa [framesOf] using hnext

theorem append_streamId (frame : StreamFrameView) (buf : StreamReceiveBuffer) :
    (buf.append frame).2.streamId = if buf.streamId = 0 then frame.streamId else buf.streamId := by
  unfold append
  by_cases hid : buf.streamId = 0
  · simp only [hid, ne_eq, not_true_eq_false, false_and, if_false, if_true]
    split_ifs <;> rfl
  · simp only [hid, if_false]
    split_ifs <;> rfl

theorem append_of_started (hid : buf.streamId ≠ 0) (herror : (buf.append frame).1 ≠ .ok ()) :
    (buf.append frame).2 = buf := by
  unfold append at herror ⊢
  simp only [hid, if_false] at herror ⊢
  split_ifs at herror ⊢ <;> first | rfl | exact absurd rfl herror

theorem Reached.eq_fresh (h : buf.Reached) (hid : buf.streamId = 0) : buf = {} := by
  induction h with
  | fresh => rfl
  | @append buf bytes frame hreached hframe ih =>
    rw [append_streamId] at hid
    split_ifs at hid with hfresh
    · exact absurd hid (valid_of_readStreamFrame hframe).streamId
    · exact absurd hid hfresh

theorem Reached.append_of_error (h : buf.Reached) (hframe : frame.Valid)
    (herror : (buf.append frame).1 ≠ .ok ()) : (buf.append frame).2 = buf := by
  by_cases hid : buf.streamId = 0
  · -- The first frame is always taken.
    obtain rfl := h.eq_fresh hid
    have hshort := hframe.length
    rw [maxStreamFramePayload_eq] at hshort
    rw [append_of_open (Or.inl rfl) rfl (by simp; omega)] at herror
    exact absurd rfl herror
  · exact append_of_started hid herror

end StreamReceiveBuffer

/-- The frames of a byte string fit the ordered channel and are decoded; the last one, and it alone,
has the FIN flag and is reported as the last; the receiver gets the bytes back. A refused frame
changes nothing. -/
theorem stream_round_trip (hid : streamId ≠ 0) {bytes : Bytes} (hlen : bytes.length < 2 ^ 32) :
    (∃ frames final, chunkStreamBytes record streamId streamFlagFin bytes [] =
        (.ok (), frames ++ [final]) ∧
      (∀ f ∈ frames ++ [final], f.1.length ≤ NetConfig.maxOrderedMessageBytes ∧
        ∃ frame, readStreamFrame f.1 = .ok frame ∧
          (f.2 = true ↔ frame.flags &&& streamFlagFin ≠ 0)) ∧
      (∀ f ∈ frames, f.2 = false) ∧ final.2 = true ∧
      StreamReceiveBuffer.appendAll ((frames ++ [final]).map Prod.fst) {} =
        .ok ⟨streamId, true, bytes⟩) ∧
    ∀ buf data frame, StreamReceiveBuffer.Reached buf → readStreamFrame data = .ok frame →
      (buf.append frame).1 ≠ .ok () → (buf.append frame).2 = buf := by
  refine ⟨?_, fun buf data frame h hframe => h.append_of_error (valid_of_readStreamFrame hframe)⟩
  obtain ⟨pieces, final, hchunk, hpieces, hfinal, rfl⟩ :=
    @chunkStreamBytes_record _ streamFlagFin hid bytes
  have hframe : ∀ (flags : UInt8) (data : Bytes) (last : Bool),
      data.length ≤ maxStreamFramePayload → (last = true ↔ flags &&& streamFlagFin ≠ 0) →
      (StreamFrameView.encode ⟨streamId, flags, data⟩).length ≤ NetConfig.maxOrderedMessageBytes ∧
        ∃ frame, readStreamFrame (StreamFrameView.encode ⟨streamId, flags, data⟩) = .ok frame ∧
          (last = true ↔ frame.flags &&& streamFlagFin ≠ 0) := by
    intro flags data last hdata hlast
    refine ⟨?_, _, readStreamFrame_encode ⟨hid, hdata⟩, hlast⟩
    rw [maxStreamFramePayload_eq] at hdata
    rw [StreamFrameView.length_encode, NetConfig.maxOrderedMessageBytes_eq]
    simp only [streamFrameHeaderBytes]
    omega
  refine ⟨_, _, hchunk, ?_, ?_, rfl, ?_⟩
  · intro f hf
    rcases List.mem_append.mp hf with hf | hf
    · obtain ⟨data, hdata, rfl⟩ := List.mem_map.mp hf
      exact hframe 0 data false (hpieces data hdata) (by decide)
    · obtain rfl := List.mem_singleton.mp hf
      exact hframe _ final true hfinal (by decide)
  · intro f hf
    obtain ⟨data, -, rfl⟩ := List.mem_map.mp hf
    rfl
  · exact StreamReceiveBuffer.appendAll_framesOf hid hpieces hfinal (Or.inl rfl) rfl
      (by simpa using hlen)

theorem stream_round_trip_two_frames :
    ∃ frames final, chunkStreamBytes record 3 streamFlagFin (List.replicate 2462 7) [] =
        (.ok (), frames ++ [final]) ∧
      StreamReceiveBuffer.appendAll ((frames ++ [final]).map Prod.fst) {} =
        .ok ⟨3, true, List.replicate 2462 7⟩ := by
  have hid : (3 : UInt16) ≠ 0 := by decide
  have hlen : (List.replicate 2462 (7 : UInt8)).length < 2 ^ 32 := by
    rw [List.length_replicate]
    decide
  obtain ⟨⟨frames, final, hchunk, -, -, -, hbytes⟩, -⟩ := stream_round_trip hid hlen
  exact ⟨frames, final, hchunk, hbytes⟩

end SecureCnet
