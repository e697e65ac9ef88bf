import SecureCnet.Library.Framing
import SecureCnet.Session.Violations

/-!
# Concatenated frames

A payload is read frame by frame until nothing is left or something is no frame. The frames
read are the longest concatenation of frames the payload starts with. The loop of
`dispatch_message_payload` looks at the state of its session as well: behind a frame that
leaves the session closed it reads nothing more.
-/

namespace SecureCnet

open Framing

/-- Write frames one after the other. -/
def writeMessages : List MsgView → ByteWriter → Result ByteWriter
  | [], w => .ok w
  | msg :: msgs, w => do
    let w ← writeMessage w msg.channel msg.type msg.data
    writeMessages msgs w

/-- Call `read_message` until it fails. -/
def readMessages (fuel : ℕ) (r : Bytes) : Option (List MsgView × Bytes × Failure) :=
  readAll readMessage fuel r

theorem reads_readMessage : Reads MsgView.encode MsgView.WellFormed readMessage where
  read_eq_ok _ _ _ := readMessage_eq_ok
  encode_ne_nil msg h := by simp [MsgView.encode] at h

/-- The stream ends where nothing is left; anything else that is no frame is malformed. -/
theorem readMessage_eq_error {r : Bytes} {e : Failure} (h : readMessage r = .error e) :
    (e.code = .endOfStream ↔ r = []) ∧ (r ≠ [] → e.code = .badPacket) := by
  by_cases hr : r = []
  · subst hr
    cases h
    exact ⟨iff_of_true rfl rfl, fun hne => absurd rfl hne⟩
  suffices hcode : e.code = .badPacket by
    rw [hcode]
    exact ⟨iff_of_false (by decide) hr, fun _ => rfl⟩
  have hne : ¬r.length = 0 := fun h0 => hr (List.length_eq_zero_iff.mp h0)
  unfold readMessage at h
  rw [if_neg hne] at h
  split_ifs at h with hshort
  · cases h
    rfl
  · -- The header is there, so the three reads succeed and one of the checks fails.
    rw [NetConfig.messageHeaderBytes_eq] at hshort
    match r, hshort with
    | [], hshort | [_], hshort | [_, _], hshort | [_, _, _], hshort => simp at hshort
    | c :: t :: l₁ :: l₂ :: r, _ =>
      have hlen : ByteReader.readU16 (l₁ :: l₂ :: r) =
          .ok (UInt16.ofNat (BigEndian.ofBE [l₁, l₂]), r) := by
        simp [ByteReader.readU16, ByteReader.readWord, ByteReader.readBytes]
      simp only [ByteReader.readU8_cons, hlen, Result.ok_bind] at h
      cases hch : Channel.ofCode c with
      | none =>
        rw [hch] at h
        cases h
        rfl
      | some channel =>
        simp only [hch] at h
        split_ifs at h with hover
        · cases h
          rfl
        · rw [ByteReader.readBytes, if_pos (not_lt.mp hover)] at h
          cases h

theorem writeMessages_eq {msgs : List MsgView}
    (h : ∀ msg ∈ msgs, msg.data.length ≤ NetConfig.maxMessageBytes) (w : ByteWriter) :
    writeMessages msgs w = w.writeBytes (msgs.flatMap MsgView.encode) := by
  induction msgs generalizing w with
  | nil => exact (ByteWriter.writeBytes_nil w).symm
  | cons msg msgs ih =>
    rw [List.forall_mem_cons] at h
    unfold writeMessages
    rw [writeMessage_eq, if_neg (not_lt.mpr h.1), List.flatMap_cons, ← ByteWriter.writeBytes_bind]
    exact congrArg _ (funext (ih h.2))

/-- Frames that are written one after the other are read back. -/
theorem readMessages_written {msgs : List MsgView} {fuel : ℕ}
    (h : ∀ msg ∈ msgs, msg.data.length ≤ NetConfig.maxMessageBytes) (hfuel : msgs.length < fuel) :
    readMessages fuel (msgs.flatMap MsgView.encode) =
      some (msgs, [], ⟨.endOfStream, "no more messages"⟩) := by
  have hmsgs : ∀ msg ∈ msgs, msg.WellFormed := by
    intro msg hmem
    have hle := h msg hmem
    rw [NetConfig.maxMessageBytes_eq] at hle
    exact lt_of_le_of_lt hle (by decide)
  have hall := reads_readMessage.readAll_flatMap hmsgs readMessage_nil hfuel
  rw [List.append_nil] at hall
  exact hall

/-- A string starts with these frames, and with no other or longer sequence of frames. -/
structure Longest (b : Bytes) (msgs : List MsgView) (rest : Bytes) : Prop where
  split : b = msgs.flatMap MsgView.encode ++ rest
  wellFormed : ∀ msg ∈ msgs, msg.WellFormed
  longest : ∀ msgs' rest', (∀ msg ∈ msgs', msg.WellFormed) →
    b = msgs'.flatMap MsgView.encode ++ rest' → msgs' <+: msgs

theorem longest_of_stop {msgs : List MsgView} {rest : Bytes} {e : Failure}
    (hmsgs : ∀ msg ∈ msgs, msg.WellFormed) (hstop : readMessage rest = .error e) :
    Longest (msgs.flatMap MsgView.encode ++ rest) msgs rest where
  split := rfl
  wellFormed := hmsgs
  longest _ _ hmsgs' heq := reads_readMessage.isPrefix_of_stop hmsgs hmsgs' hstop heq.symm

/-! ### The loop of a session -/

namespace Party

variable {C : Crypto} {now : UInt64} {p : Party} {before : List MsgView} {msg : MsgView}
  {rest : Bytes} {fuel : ℕ}

/-- Behind a frame that leaves the session closed nothing is read. -/
theorem readLoop_of_closed (hbefore : ∀ m ∈ before, m.WellFormed) (hmsg : msg.WellFormed)
    (hopen : p.StaysOpen C now before)
    (hclosed : (p.afterFrames C now (before ++ [msg])).session.state = .closed)
    (hfuel : before.length < fuel) :
    p.readLoop C now fuel (before.flatMap MsgView.encode ++ (msg.encode ++ rest)) =
      some (before ++ [msg], rest, .closed) := by
  induction before generalizing fuel p with
  | nil =>
    obtain ⟨fuel, rfl⟩ := Nat.exists_eq_succ_of_ne_zero (Nat.ne_of_gt hfuel)
    rw [List.flatMap_nil, List.nil_append, readLoop, reads_readMessage.read_encode hmsg]
    exact if_pos hclosed
  | cons m before ih =>
    rw [List.forall_mem_cons] at hbefore
    obtain ⟨fuel, rfl⟩ := Nat.exists_eq_succ_of_ne_zero (Nat.ne_of_gt (Nat.zero_lt_of_lt hfuel))
    rw [List.flatMap_cons, List.append_assoc, readLoop, reads_readMessage.read_encode hbefore.1]
    simp only [if_neg hopen.head]
    rw [ih hbefore.2 hopen.tail hclosed (Nat.lt_of_succ_lt_succ hfuel)]
    rfl

end Party

/-- Frames that are written one after the other are read back, followed by the end of the stream.
Every string is read up to the end of the longest concatenation of frames at its front, by
`read_message` alone and by the loop of a session that no frame leaves closed; the first frame
that does is the last one read. The session is as the frames read leave it. -/
theorem frames_read_exactly (C : Crypto) (now : UInt64) :
    (∀ (msgs : List MsgView) (cap : ℕ),
      (∀ msg ∈ msgs, msg.data.length ≤ NetConfig.maxMessageBytes) →
      (msgs.flatMap MsgView.encode).length ≤ cap →
      ∃ w e, writeMessages msgs ⟨cap, []⟩ = .ok w ∧ e.code = .endOfStream ∧
        ∀ fuel, msgs.length < fuel → readMessages fuel w.out = some (msgs, [], e)) ∧
    ∀ b : Bytes, ∃ msgs rest e, Longest b msgs rest ∧
      (e.code = .endOfStream ↔ rest = []) ∧ (rest ≠ [] → e.code = .badPacket) ∧
      ∀ fuel, b.length < fuel → readMessages fuel b = some (msgs, rest, e) ∧
        ∀ p : Party,
          (p.StaysOpen C now msgs → p.readLoop C now fuel b = some (msgs, rest, .ofFailure e) ∧
            p.dispatchFrames C now fuel b =
              (p.afterFrames C now msgs).leave C now (.ofFailure e)) ∧
          ∀ before msg after, msgs = before ++ msg :: after → p.StaysOpen C now before →
            (p.afterFrames C now (before ++ [msg])).session.state = .closed →
            p.readLoop C now fuel b =
                some (before ++ [msg], after.flatMap MsgView.encode ++ rest, .closed) ∧
              p.dispatchFrames C now fuel b = p.afterFrames C now (before ++ [msg]) := by
  constructor
  · intro msgs cap hlen hcap
    refine ⟨⟨cap, msgs.flatMap MsgView.encode⟩, ⟨.endOfStream, "no more messages"⟩, ?_, rfl, ?_⟩
    · rw [writeMessages_eq hlen, ByteWriter.writeBytes_fresh, if_pos hcap]
    · intro fuel hfuel
      exact readMessages_written hlen hfuel
  · intro b
    obtain ⟨msgs, rest, e, rfl, hmsgs, hstop⟩ := reads_readMessage.exists_split b
    have hlength := reads_readMessage.length_le_flatMap msgs
    obtain ⟨hends, hbad⟩ := readMessage_eq_error hstop
    refine ⟨msgs, rest, e, longest_of_stop hmsgs hstop, hends, hbad, fun fuel hfuel => ?_⟩
    rw [List.length_append] at hfuel
    refine ⟨reads_readMessage.readAll_flatMap hmsgs hstop (by omega), fun p => ⟨?_, ?_⟩⟩
    · intro hopen
      have hloop : p.readLoop C now fuel _ = _ :=
        Party.readLoop_of_open hmsgs hstop hopen (by omega)
      exact ⟨hloop, Party.dispatchFrames_eq hloop⟩
    · rintro before msg after rfl hopen hclosed
      rw [List.forall_mem_append, List.forall_mem_cons] at hmsgs
      rw [List.length_append, List.length_cons] at hlength
      rw [List.flatMap_append, List.flatMap_cons, List.append_assoc, List.append_assoc]
      have hloop (rest : Bytes) : p.readLoop C now fuel
          (before.flatMap MsgView.encode ++ (msg.encode ++ rest)) =
          some (before ++ [msg], rest, .closed) :=
        Party.readLoop_of_closed hmsgs.1 hmsgs.2.1 hopen hclosed (by omega)
      exact ⟨hloop _, Party.dispatchFrames_eq (hloop _)⟩

namespace Party

def cutShort : Bytes := [notice, unknownControl].flatMap MsgView.encode ++ [0, 7]

/-- The open session reads the two frames and reports what is left as malformed. -/
theorem cutShort_read :
    readMessages (cutShort.length + 1) cutShort =
        some ([notice, unknownControl], [0, 7], ⟨.badPacket, "truncated message header"⟩) ∧
      openSession.readLoop .standIn 5 (cutShort.length + 1) cutShort =
        some ([notice, unknownControl], [0, 7],
          .failed ⟨.badPacket, "truncated message header"⟩) ∧
      openSession.dispatchMessagePayload .standIn 5 cutShort =
        (openSession.afterFrames .standIn 5 [notice, unknownControl]).violation .standIn 5
          .invalidPacket := by
  obtain ⟨msgs, rest, e, -, -, -, hread⟩ := (frames_read_exactly .standIn 5).2 cutShort
  obtain ⟨hall, hloop⟩ := hread (cutShort.length + 1) (Nat.lt_succ_self _)
  have hvalue : readMessages (cutShort.length + 1) cutShort =
      some ([notice, unknownControl], [0, 7], ⟨.badPacket, "truncated message header"⟩) := by
    decide
  refine ⟨hvalue, ?_⟩
  obtain ⟨rfl, rfl, rfl⟩ : msgs = [notice, unknownControl] ∧ rest = [0, 7] ∧
      e = ⟨.badPacket, "truncated message header"⟩ := by
    have heq := Option.some.inj (hall.symm.trans hvalue)
    simpa using heq
  exact (hloop openSession).1 (staysOpen_of_server openSession_side (by decide) _)

/-- A close packet of the peer. -/
def hangUp (seq : UInt64) : Bytes :=
  (buildPacket .standIn .close true (be16 CloseReason.normal.code) 1 seq
    openSession.session.keys.rx).toOption.getD []

def hungUp : Party :=
  (openSession.receive .standIn 5 (hangUp 1)).receive .standIn 6 (hangUp 2)

def twoNotices : Bytes := [notice, notice].flatMap MsgView.encode

/-- The closed session reads the first of two frames and leaves the loop. -/
theorem closed_session_reads_one_frame :
    hungUp.session.state = .closed ∧
      readMessages (twoNotices.length + 1) twoNotices =
        some ([notice, notice], [], ⟨.endOfStream, "no more messages"⟩) ∧
      hungUp.readLoop .standIn 7 (twoNotices.length + 1) twoNotices =
        some ([notice], notice.encode, .closed) ∧
      hungUp.dispatchMessagePayload .standIn 7 twoNotices =
        hungUp.afterFrames .standIn 7 [notice] ∧
      hungUp.afterFrames .standIn 7 [notice] ≠ hungUp.afterFrames .standIn 7 [notice, notice] := by
  have hloop : hungUp.readLoop .standIn 7 (twoNotices.length + 1) twoNotices =
      some ([notice], notice.encode, .closed) := by
    decide +kernel
  refine ⟨by decide +kernel, by decide +kernel, hloop, dispatchFrames_eq hloop, fun h => ?_⟩
  have hcount : (hungUp.afterFrames .standIn 7 [notice]).session.trace.length ≠
      (hungUp.afterFrames .standIn 7 [notice, notice]).session.trace.length := by
    decide +kernel
  exact hcount (congrArg (·.session.trace.length) h)

end Party

end SecureCnet
