import Mathlib.Data.List.AList
import SecureCnet.Wire.Fragment

/-!
# Reassembly of fragmented messages

One entry per message in progress, with the bytes received so far and one flag
per piece. `Consistent` says that every entry holds exactly received pieces of the
message with its id; completing such an entry hands over that message.
-/

namespace SecureCnet

open Chunks

structure ReassemblyEntry where
  messageId : UInt64
  deliverySequence : UInt64
  channel : Channel
  type : UInt8
  fragmentCount : UInt16
  originalLength : UInt16
  receivedCount : UInt16 := 0
  createdMs : UInt64
  lastUpdateMs : UInt64
  payload : Bytes
  received : List Bool
  deriving DecidableEq, Repr

structure FragmentReassembler where
  cfg : FragmentationConfig := {}
  entries : AList fun _ : UInt64 => ReassemblyEntry := ∅
  memoryBytes : UInt64 := 0
  deriving DecidableEq

namespace ReassemblyEntry

/-- The entry opened by the first piece of a message. -/
def fresh (nowMs : UInt64) (f : FragmentView) : ReassemblyEntry where
  messageId := f.messageId
  deliverySequence := f.deliverySequence
  channel := f.channel
  type := f.type
  fragmentCount := f.fragmentCount
  originalLength := f.originalLength
  createdMs := nowMs
  lastUpdateMs := nowMs
  payload := List.replicate f.originalLength.toNat 0
  received := List.replicate f.fragmentCount.toNat false

def sameMetadata (e : ReassemblyEntry) (f : FragmentView) : Bool :=
  e.deliverySequence = f.deliverySequence && e.channel = f.channel && e.type = f.type &&
    e.fragmentCount = f.fragmentCount && e.originalLength = f.originalLength

/-- Copy a piece into its place and flag it. -/
def store (nowMs : UInt64) (f : FragmentView) (e : ReassemblyEntry) : ReassemblyEntry :=
  { e with
    payload := paste (f.fragmentIndex.toNat * NetConfig.maxFragmentDataBytes) f.data e.payload
    received := e.received.set f.fragmentIndex.toNat true
    receivedCount := e.receivedCount + 1
    lastUpdateMs := nowMs }

def message (e : ReassemblyEntry) : FragmentedMessage :=
  ⟨e.messageId, e.deliverySequence, e.channel, e.type, e.payload⟩

end ReassemblyEntry

namespace FragmentReassembler

def configure (cfg : FragmentationConfig) (_ : FragmentReassembler) : FragmentReassembler := { cfg }

def clear (r : FragmentReassembler) : FragmentReassembler :=
  { r with entries := ∅, memoryBytes := 0 }

def contains (messageId : UInt64) (r : FragmentReassembler) : Bool :=
  (r.entries.lookup messageId).isSome

/-- The checks on a single piece, before any entry is looked at. -/
def checkFragment (cfg : FragmentationConfig) (f : FragmentView) : Result Unit :=
  if !cfg.enabled then fail .stateError "fragmentation disabled"
  else if cfg.maxFragmentsPerMessage < f.fragmentCount ∨
      cfg.maxReassembledMessageBytes.toNat < f.originalLength.toNat then
    fail .tooLarge "fragment exceeds policy"
  else if f.fragmentCount = 0 ∨ f.fragmentCount ≤ f.fragmentIndex then
    fail .badPacket "fragment index/count is invalid"
  else if f.data.length ≠ (fragmentSizeForIndex f.originalLength f.fragmentIndex).toNat then
    fail .badPacket "fragment length is invalid"
  else if !f.channel.isApplication then fail .badPacket "fragment channel is invalid"
  else .ok ()

/-- Find the entry of a piece, or open one within the limits. -/
def openEntry (nowMs : UInt64) (f : FragmentView) (r : FragmentReassembler) :
    Result (ReassemblyEntry × FragmentReassembler) :=
  match r.entries.lookup f.messageId with
  | some e => .ok (e, r)
  | none =>
    if r.cfg.maxConcurrentReassembliesPerPeer.toNat ≤ r.entries.entries.length then
      fail .queueFull "too many concurrent reassemblies"
    else if r.cfg.maxTotalReassemblyMemoryPerPeer <
        r.memoryBytes + f.originalLength.toUInt64 then
      fail .queueFull "reassembly memory quota exceeded"
    else
      let e := ReassemblyEntry.fresh nowMs f
      .ok (e, { r with
        entries := r.entries.insert f.messageId e
        memoryBytes := r.memoryBytes + f.originalLength.toUInt64 })

def put (messageId : UInt64) (e : ReassemblyEntry) (r : FragmentReassembler) :
    FragmentReassembler :=
  { r with entries := r.entries.insert messageId e }

/-- Remove an entry and give back its memory. -/
def drop (messageId : UInt64) (r : FragmentReassembler) : FragmentReassembler :=
  match r.entries.lookup messageId with
  | none => r
  | some e => { r with
      entries := r.entries.erase messageId
      memoryBytes := r.memoryBytes - e.originalLength.toUInt64 }

variable {σ : Type}

/-- Take in one piece; `onComplete` receives a finished message and may fail. -/
def accept (nowMs : UInt64) (f : FragmentView)
    (onComplete : FragmentedMessage → σ → Result Unit × σ) (r : FragmentReassembler) (s : σ) :
    Result Unit × FragmentReassembler × σ :=
  match checkFragment r.cfg f with
  | .error e => (.error e, r, s)
  | .ok () =>
    match r.openEntry nowMs f with
    | .error e => (.error e, r, s)
    | .ok (e, r) =>
      if !e.sameMetadata f then (fail .badPacket "fragment set metadata mismatch", r, s)
      else if e.received.getD f.fragmentIndex.toNat false then
        (.ok (), r.put f.messageId { e with lastUpdateMs := nowMs }, s)
      else if e.payload.length <
          f.fragmentIndex.toNat * NetConfig.maxFragmentDataBytes + f.data.length then
        (fail .badPacket "fragment exceeds reassembly buffer", r, s)
      else
        let e := e.store nowMs f
        let r := r.put f.messageId e
        if e.receivedCount = e.fragmentCount then
          match onComplete e.message s with
          | (.error err, s) => (.error err, r, s)
          | (.ok (), s) => (.ok (), r.drop f.messageId, s)
        else (.ok (), r, s)

/-- The result of `acceptWith` and its two flags. -/
structure Report where
  rc : Result Unit
  duplicate : Bool := false
  completed : Bool := false
  deriving DecidableEq

/-- `accept` with the flags of the source, which only statistics read. -/
def acceptWith (nowMs : UInt64) (f : FragmentView)
    (onComplete : FragmentedMessage → σ → Result Unit × σ) (r : FragmentReassembler) (s : σ) :
    Report × FragmentReassembler × σ :=
  match checkFragment r.cfg f with
  | .error e => ({ rc := .error e }, r, s)
  | .ok () =>
    match r.openEntry nowMs f with
    | .error e => ({ rc := .error e }, r, s)
    | .ok (e, r) =>
      if !e.sameMetadata f then ({ rc := fail .badPacket "fragment set metadata mismatch" }, r, s)
      else if e.received.getD f.fragmentIndex.toNat false then
        ({ rc := .ok (), duplicate := true },
          r.put f.messageId { e with lastUpdateMs := nowMs }, s)
      else if e.payload.length <
          f.fragmentIndex.toNat * NetConfig.maxFragmentDataBytes + f.data.length then
        ({ rc := fail .badPacket "fragment exceeds reassembly buffer" }, r, s)
      else
        let e := e.store nowMs f
        let r := r.put f.messageId e
        if e.receivedCount = e.fragmentCount then
          match onComplete e.message s with
          | (.error err, s) => ({ rc := .error err }, r, s)
          | (.ok (), s) => ({ rc := .ok (), completed := true }, r.drop f.messageId, s)
        else ({ rc := .ok () }, r, s)

theorem acceptWith_eq (nowMs : UInt64) (f : FragmentView)
    (onComplete : FragmentedMessage → σ → Result Unit × σ) (r : FragmentReassembler) (s : σ) :
    ((r.acceptWith nowMs f onComplete s).1.rc, (r.acceptWith nowMs f onComplete s).2) =
      r.accept nowMs f onComplete s := by
  unfold acceptWith accept
  cases checkFragment r.cfg f with
  | error e => rfl
  | ok u =>
    cases r.openEntry nowMs f with
    | error e => rfl
    | ok er =>
      dsimp only
      split_ifs
      · rfl
      · rfl
      · rfl
      · cases onComplete (er.1.store nowMs f).message s with
        | mk rc s' => cases rc <;> rfl
      · rfl

/-- An entry no piece arrived for during the timeout. -/
def stale (nowMs : UInt64) (cfg : FragmentationConfig) (e : ReassemblyEntry) : Bool :=
  e.lastUpdateMs + cfg.reassemblyTimeoutMs ≤ nowMs

def expireOld (nowMs : UInt64) (r : FragmentReassembler) : FragmentReassembler :=
  ((r.entries.entries.filter fun e => stale nowMs r.cfg e.2).map Sigma.fst).foldl
    (fun r id => r.drop id) r

end FragmentReassembler

/-- An entry whose flagged pieces are those of the message `m`. -/
structure ReassemblyEntry.Matches (m : FragmentedMessage) (e : ReassemblyEntry) : Prop where
  messageId : e.messageId = m.messageId
  deliverySequence : e.deliverySequence = m.deliverySequence
  channel : e.channel = m.channel
  type : e.type = m.type
  fragmentCount : e.fragmentCount = m.fragmentCount
  originalLength : e.originalLength = m.originalLength
  payload_length : e.payload.length = m.payload.length
  received_length : e.received.length = m.fragmentCount.toNat
  count : e.receivedCount.toNat = e.received.count true
  pieces : ∀ i, e.received[i]? = some true →
    chunk NetConfig.maxFragmentDataBytes i e.payload =
      chunk NetConfig.maxFragmentDataBytes i m.payload

namespace ReassemblyEntry

variable {m : FragmentedMessage} {e : ReassemblyEntry} {i : UInt16}

theorem matches_fresh (hm : m.Sendable) (i : UInt16) (now : UInt64) :
    (fresh now (m.piece i)).Matches m where
  messageId := rfl
  deliverySequence := rfl
  channel := rfl
  type := rfl
  fragmentCount := rfl
  originalLength := rfl
  payload_length := by
    simp only [fresh, List.length_replicate]
    exact hm.originalLength_toNat
  received_length := by simp [fresh, FragmentedMessage.piece]
  count := by simp [fresh, List.count_replicate]
  pieces := by
    intro j hj
    simp [fresh, List.getElem?_replicate] at hj

theorem Matches.sameMetadata (h : e.Matches m) (i : UInt16) :
    e.sameMetadata (m.piece i) = true := by
  simp [ReassemblyEntry.sameMetadata, FragmentedMessage.piece, h.deliverySequence, h.channel,
    h.type, h.fragmentCount, h.originalLength]

theorem Matches.fits (h : e.Matches m) (hm : m.Sendable) (hi : i < m.fragmentCount) :
    i.toNat * NetConfig.maxFragmentDataBytes + (m.piece i).data.length ≤ e.payload.length := by
  have hcount := hm.fragmentCount_toNat
  have hlt := UInt16.lt_iff_toNat_lt.mp hi
  rw [h.payload_length]
  simp only [FragmentedMessage.piece, length_chunk, NetConfig.maxFragmentDataBytes_eq]
  omega

theorem Matches.flag_eq_false (h : e.Matches m) (hi : i < m.fragmentCount)
    (hne : e.received[i.toNat]? ≠ some true) : e.received[i.toNat]? = some false := by
  have hlt : i.toNat < e.received.length := by
    rw [h.received_length]
    exact UInt16.lt_iff_toNat_lt.mp hi
  rw [List.getElem?_eq_getElem hlt] at hne ⊢
  cases hb : e.received[i.toNat] with
  | true => simp [hb] at hne
  | false => rfl

theorem count_true_set {l : List Bool} {n : ℕ} (h : l[n]? = some false) :
    (l.set n true).count true = l.count true + 1 := by
  obtain ⟨hn, hv⟩ := List.getElem?_eq_some_iff.mp h
  rw [List.count_set hn, hv]
  simp

theorem Matches.store (h : e.Matches m) (hm : m.Sendable) (hi : i < m.fragmentCount)
    (hflag : e.received[i.toNat]? = some false) (now : UInt64) :
    (e.store now (m.piece i)).Matches m where
  messageId := h.messageId
  deliverySequence := h.deliverySequence
  channel := h.channel
  type := h.type
  fragmentCount := h.fragmentCount
  originalLength := h.originalLength
  payload_length := by
    rw [← h.payload_length]
    exact length_paste (h.fits hm hi)
  received_length := by
    simp only [ReassemblyEntry.store, List.length_set]
    exact h.received_length
  count := by
    have hset := count_true_set hflag
    have hle : (e.received.set i.toNat true).count true ≤ e.received.length := by
      rw [← List.length_set (i := i.toNat) (a := true)]
      exact List.count_le_length
    rw [hset] at hle
    have hlen := h.received_length
    have hmax := m.fragmentCount.toNat_lt
    change (e.receivedCount + 1).toNat = (e.received.set i.toNat true).count true
    rw [hset, UInt16.toNat_add, h.count]
    exact Nat.mod_eq_of_lt (by simp; omega)
  pieces := by
    intro j hj
    change chunk _ j (paste (i.toNat * NetConfig.maxFragmentDataBytes) (m.piece i).data e.payload) = _
    have hfits := h.fits hm hi
    by_cases hji : i.toNat = j
    · subst hji
      rw [chunk_paste_self hfits (by
        rw [FragmentedMessage.piece, length_chunk, h.payload_length])]
      rfl
    · have hlen : (m.piece i).data.length ≤ NetConfig.maxFragmentDataBytes := by
        rw [FragmentedMessage.piece, length_chunk]
        exact min_le_left _ _
      rw [chunk_paste_of_ne hfits hlen hji]
      apply h.pieces
      change (e.received.set i.toNat true)[j]? = some true at hj
      rwa [List.getElem?_set_ne hji] at hj

/-- When every flag is set the entry is the message. -/
theorem Matches.message_eq (h : e.Matches m) (hm : m.Sendable)
    (hfull : e.receivedCount = e.fragmentCount) :
    (∀ j < m.fragmentCount.toNat, e.received[j]? = some true) ∧ e.message = m := by
  have hall : ∀ j < m.fragmentCount.toNat, e.received[j]? = some true := by
    have hcount : e.received.count true = e.received.length := by
      rw [← h.count, hfull, h.fragmentCount, h.received_length]
    intro j hj
    rw [← h.received_length] at hj
    rw [List.getElem?_eq_getElem hj]
    have := List.count_eq_length.mp hcount e.received[j] (List.getElem_mem hj)
    rw [← this]
  refine ⟨hall, ?_⟩
  have hpay : e.payload = m.payload := by
    apply eq_of_chunks (k := NetConfig.maxFragmentDataBytes) (by decide) h.payload_length
    intro j hj
    apply h.pieces j
    apply hall
    have hcount := hm.fragmentCount_toNat
    rw [h.payload_length] at hj
    simp only [NetConfig.maxFragmentDataBytes_eq] at hj
    omega
  simp [message, hpay, h.messageId, h.deliverySequence, h.channel, h.type]

end ReassemblyEntry

namespace FragmentReassembler

variable {r : FragmentReassembler} {m : FragmentedMessage} {i : UInt16}
  {A : UInt64 → Option FragmentedMessage} {e : ReassemblyEntry} {σ : Type}

/-- Piece `j` of message `id` has been taken in and its entry is still open. -/
def Has (r : FragmentReassembler) (id : UInt64) (j : ℕ) : Prop :=
  ∃ e, r.entries.lookup id = some e ∧ e.received[j]? = some true

/-- Every open entry belongs to a message `A` knows under its id. -/
def Consistent (A : UInt64 → Option FragmentedMessage) (r : FragmentReassembler) : Prop :=
  ∀ id e, r.entries.lookup id = some e →
    ∃ m, A id = some m ∧ m.messageId = id ∧ m.Sendable ∧ e.Matches m

theorem consistent_empty (A : UInt64 → Option FragmentedMessage) (cfg : FragmentationConfig) :
    Consistent A { cfg } := by
  intro id e h
  simp at h

theorem Consistent.mono {B : UInt64 → Option FragmentedMessage} (h : Consistent A r)
    (hAB : ∀ id m, A id = some m → B id = some m) : Consistent B r := by
  intro id e he
  obtain ⟨m, hm, hrest⟩ := h id e he
  exact ⟨m, hAB id m hm, hrest⟩

theorem Consistent.matches (h : Consistent A r) (hA : A m.messageId = some m)
    (he : r.entries.lookup m.messageId = some e) : e.Matches m := by
  obtain ⟨m', hm', -, -, hmat⟩ := h _ _ he
  rw [hA, Option.some.injEq] at hm'
  rw [hm']
  exact hmat

theorem lookup_put (id id' : UInt64) (e : ReassemblyEntry) (r : FragmentReassembler) :
    (r.put id e).entries.lookup id' = if id' = id then some e else r.entries.lookup id' := by
  unfold put
  split_ifs with h
  · subst h
    exact AList.lookup_insert _
  · exact AList.lookup_insert_ne h

theorem lookup_drop (id id' : UInt64) (r : FragmentReassembler) :
    (r.drop id).entries.lookup id' = if id' = id then none else r.entries.lookup id' := by
  unfold drop
  cases hl : r.entries.lookup id with
  | none =>
    split_ifs with h
    · rw [h, hl]
    · rfl
  | some e =>
    split_ifs with h
    · rw [h]
      exact AList.lookup_erase _ _
    · exact AList.lookup_erase_ne h

theorem drop_cfg (id : UInt64) (r : FragmentReassembler) : (r.drop id).cfg = r.cfg := by
  unfold drop
  cases r.entries.lookup id <;> rfl

/-- There is an entry for a message, or room for one. -/
def HasRoom (r : FragmentReassembler) (m : FragmentedMessage) : Prop :=
  r.contains m.messageId = true ∨
    r.entries.entries.length < r.cfg.maxConcurrentReassembliesPerPeer.toNat ∧
      r.memoryBytes + m.originalLength.toUInt64 ≤ r.cfg.maxTotalReassemblyMemoryPerPeer

instance (r : FragmentReassembler) (m : FragmentedMessage) : Decidable (r.HasRoom m) :=
  inferInstanceAs (Decidable (_ ∨ _))

/-- The limits let a piece of a message in. -/
def Admits (r : FragmentReassembler) (m : FragmentedMessage) : Prop :=
  r.cfg.enabled = true ∧ m.fragmentCount ≤ r.cfg.maxFragmentsPerMessage ∧
    m.originalLength.toNat ≤ r.cfg.maxReassembledMessageBytes.toNat ∧
    r.HasRoom m

instance (r : FragmentReassembler) (m : FragmentedMessage) : Decidable (r.Admits m) :=
  inferInstanceAs (Decidable (_ ∧ _))

/-- The checks on a piece that can be cut depend on the limits alone. -/
theorem checkFragment_piece (hm : m.Sendable) (hi : i < m.fragmentCount)
    (cfg : FragmentationConfig) :
    (checkFragment cfg (m.piece i) = .ok () ∧ cfg.enabled = true ∧
      m.fragmentCount ≤ cfg.maxFragmentsPerMessage ∧
      m.originalLength.toNat ≤ cfg.maxReassembledMessageBytes.toNat) ∨
    (¬(cfg.enabled = true ∧ m.fragmentCount ≤ cfg.maxFragmentsPerMessage ∧
        m.originalLength.toNat ≤ cfg.maxReassembledMessageBytes.toNat) ∧
      ∃ e : Failure, checkFragment cfg (m.piece i) = .error e ∧
        (e.code = .stateError ∨ e.code = .tooLarge)) := by
  have hw := hm.piece_wellFormed hi
  have hidx : ¬((m.piece i).fragmentCount = 0 ∨
      (m.piece i).fragmentCount ≤ (m.piece i).fragmentIndex) := by
    rintro (h0 | hle)
    · have := UInt16.lt_iff_toNat_lt.mp hw.index
      rw [h0] at this
      simp at this
    · exact absurd hw.index (UInt16.not_lt.mpr hle)
  have happ : ¬(!(m.piece i).channel.isApplication) = true := by
    simp [Channel.isApplication, hw.application]
  unfold checkFragment
  by_cases hen : (!cfg.enabled) = true
  · refine Or.inr ⟨fun h => ?_, _, if_pos hen, Or.inl rfl⟩
    simp [h.1] at hen
  rw [if_neg hen]
  split_ifs with hpol
  · refine Or.inr ⟨fun h => ?_, _, rfl, Or.inr rfl⟩
    rcases hpol with hcount | hlen
    · exact absurd h.2.1 (UInt16.not_le.mpr hcount)
    · exact absurd h.2.2 (not_le.mpr hlen)
  · exact absurd hw.size (by assumption)
  · rw [not_or, UInt16.not_lt, not_lt] at hpol
    exact Or.inl ⟨rfl, by simpa using hen, hpol.1, hpol.2⟩

/-- Opening an entry for a piece: refused for lack of room, or an entry of the message. -/
theorem openEntry_piece (hm : m.Sendable) (i : UInt16) (now : UInt64)
    (hr : ∀ e, r.entries.lookup m.messageId = some e → e.Matches m) :
    (∃ e : Failure, r.openEntry now (m.piece i) = .error e ∧ e.code = .queueFull ∧
      ¬r.HasRoom m) ∨
    ∃ e r', r.HasRoom m ∧ r.openEntry now (m.piece i) = .ok (e, r') ∧ e.Matches m ∧ r'.cfg = r.cfg ∧
      (∀ id, id ≠ m.messageId → r'.entries.lookup id = r.entries.lookup id) ∧
      ∀ j, e.received[j]? = some true ↔ r.Has m.messageId j := by
  have hid : (m.piece i).messageId = m.messageId := rfl
  unfold openEntry
  cases hl : r.entries.lookup m.messageId with
  | some e =>
    right
    rw [hid, hl]
    refine ⟨e, r, Or.inl (by simp [contains, hl]), rfl, hr e hl, rfl, fun _ _ => rfl, fun j => ?_⟩
    constructor
    · exact fun h => ⟨e, hl, h⟩
    · rintro ⟨e', he', h⟩
      rw [hl, Option.some.injEq] at he'
      rw [he']
      exact h
  | none =>
    rw [hid, hl]
    dsimp only
    have hno : ¬r.contains m.messageId = true := by simp [contains, hl]
    split_ifs with hconc hmem
    · refine Or.inl ⟨_, rfl, rfl, ?_⟩
      rintro (h | h)
      · exact hno h
      · exact absurd h.1 (not_lt.mpr hconc)
    · refine Or.inl ⟨_, rfl, rfl, ?_⟩
      rintro (h | h)
      · exact hno h
      · exact absurd h.2 (UInt64.not_le.mpr hmem)
    · right
      refine ⟨_, _, Or.inr ⟨not_le.mp hconc, UInt64.not_lt.mp hmem⟩, rfl,
        ReassemblyEntry.matches_fresh hm i now, rfl, ?_, fun j => ?_⟩
      · intro id hne
        exact AList.lookup_insert_ne hne
      · constructor
        · intro h
          simp [ReassemblyEntry.fresh, List.getElem?_replicate] at h
        · rintro ⟨e', he', -⟩
          rw [hl] at he'
          cases he'

/-- What taking in a piece of a known message does. -/
inductive AcceptPiece {σ : Type} (r : FragmentReassembler) (m : FragmentedMessage) (i : ℕ)
    (onComplete : FragmentedMessage → σ → Result Unit × σ) (s : σ) :
    Result Unit → FragmentReassembler → σ → Prop
  /-- A limit refuses the piece; nothing changes. -/
  | refused (e : Failure) (hcode : e.code = .stateError ∨ e.code = .tooLarge ∨ e.code = .queueFull)
      (hwhy : ¬r.Admits m) : AcceptPiece r m i onComplete s (.error e) r s
  /-- The piece was there already. -/
  | duplicate (r' : FragmentReassembler) (hold : r.Has m.messageId i)
      (hhas : ∀ id j, r'.Has id j ↔ r.Has id j) : AcceptPiece r m i onComplete s (.ok ()) r' s
  /-- The piece is kept and others are still missing. -/
  | stored (r' : FragmentReassembler) (hnew : ¬r.Has m.messageId i)
      (hmissing : ∃ j < m.fragmentCount.toNat, ¬r'.Has m.messageId j)
      (hhas : ∀ id j, r'.Has id j ↔ r.Has id j ∨ id = m.messageId ∧ j = i) :
      AcceptPiece r m i onComplete s (.ok ()) r' s
  /-- The last piece: the message is handed over and its entry closed. -/
  | completed (r' : FragmentReassembler) (s' : σ) (hnew : ¬r.Has m.messageId i)
      (hrest : ∀ j < m.fragmentCount.toNat, j ≠ i → r.Has m.messageId j)
      (hdone : onComplete m s = (.ok (), s'))
      (hhas : ∀ id j, r'.Has id j ↔ id ≠ m.messageId ∧ r.Has id j) :
      AcceptPiece r m i onComplete s (.ok ()) r' s'
  /-- The last piece, but the receiver of the message fails; the entry stays. -/
  | failed (e : Failure) (r' : FragmentReassembler) (s' : σ) (hnew : ¬r.Has m.messageId i)
      (hrest : ∀ j < m.fragmentCount.toNat, j ≠ i → r.Has m.messageId j)
      (hdone : onComplete m s = (.error e, s'))
      (hhas : ∀ id j, r'.Has id j ↔ r.Has id j ∨ id = m.messageId ∧ j = i) :
      AcceptPiece r m i onComplete s (.error e) r' s'

theorem has_put_store {r' : FragmentReassembler} (hmat : e.Matches m) (hi : i < m.fragmentCount)
    (hother : ∀ id, id ≠ m.messageId → r'.entries.lookup id = r.entries.lookup id)
    (hflags : ∀ j, e.received[j]? = some true ↔ r.Has m.messageId j) (now id : UInt64) (j : ℕ) :
    (r'.put m.messageId (e.store now (m.piece i))).Has id j ↔
      r.Has id j ∨ id = m.messageId ∧ j = i.toNat := by
  have hlt : i.toNat < e.received.length := by
    rw [hmat.received_length]
    exact UInt16.lt_iff_toNat_lt.mp hi
  unfold Has
  simp only [lookup_put]
  by_cases hid : id = m.messageId
  · subst hid
    have hset : ∀ j, (e.store now (m.piece i)).received[j]? = some true ↔
        e.received[j]? = some true ∨ j = i.toNat := by
      intro j
      change (e.received.set i.toNat true)[j]? = some true ↔ _
      by_cases hj : i.toNat = j
      · subst hj
        simp [hlt]
      · rw [List.getElem?_set_ne hj]
        simp only [Ne.symm hj, or_false]
    simp only [if_true, Option.some.injEq, exists_eq_left', true_and, hset]
    rw [hflags j]
    rfl
  · simp only [hid, if_false, hother id hid, false_and, or_false]

/-- The reassembler keeps its consistency and acts on a piece as `AcceptPiece` says. -/
theorem accept_piece (hr : Consistent A r) (hA : A m.messageId = some m) (hm : m.Sendable)
    (hi : i < m.fragmentCount) (now : UInt64) (onComplete : FragmentedMessage → σ → Result Unit × σ)
    (s : σ) :
    AcceptPiece r m i.toNat onComplete s (r.accept now (m.piece i) onComplete s).1
        (r.accept now (m.piece i) onComplete s).2.1 (r.accept now (m.piece i) onComplete s).2.2 ∧
      Consistent A (r.accept now (m.piece i) onComplete s).2.1 ∧
      (r.accept now (m.piece i) onComplete s).2.1.cfg = r.cfg := by
  have hid : (m.piece i).messageId = m.messageId := rfl
  have hix : (m.piece i).fragmentIndex = i := rfl
  unfold accept
  rcases checkFragment_piece hm hi r.cfg with ⟨hc, -⟩ | ⟨hwhy, err, hc, hcode⟩
  swap
  · rw [hc]
    exact ⟨.refused err (by tauto) (fun h => hwhy ⟨h.1, h.2.1, h.2.2.1⟩), hr, rfl⟩
  rw [hc]
  rcases openEntry_piece hm i now fun e => hr.matches hA with
    ⟨err, ho, hcode, hwhy⟩ | ⟨e, r', -, ho, hmat, hcfg, hother, hflags⟩
  · rw [ho]
    exact ⟨.refused err (by tauto) (fun h => hwhy h.2.2.2), hr, rfl⟩
  rw [ho]
  have hput : ∀ e' : ReassemblyEntry, e'.Matches m → Consistent A (r'.put m.messageId e') := by
    intro e' he' id x hx
    rw [lookup_put] at hx
    split_ifs at hx with hidm
    · rw [Option.some.injEq] at hx
      rw [hidm, ← hx]
      exact ⟨m, hA, rfl, hm, he'⟩
    · rw [hother id hidm] at hx
      exact hr id x hx
  simp only [hmat.sameMetadata i, Bool.not_true, Bool.false_eq_true, if_false, hid, hix]
  by_cases hold : e.received[i.toNat]? = some true
  · -- The flag is set: only the time of the entry changes.
    have hget : e.received.getD i.toNat false = true := by simp [List.getD, hold]
    simp only [hget, if_true]
    refine ⟨.duplicate _ ((hflags _).mp hold) ?_, ?_, hcfg⟩
    · intro id j
      unfold Has
      simp only [lookup_put]
      by_cases hidm : id = m.messageId
      · subst hidm
        simp only [if_true, Option.some.injEq, exists_eq_left']
        exact hflags j
      · simp only [hidm, if_false, hother id hidm]
    · exact hput _ ⟨hmat.messageId, hmat.deliverySequence, hmat.channel, hmat.type,
        hmat.fragmentCount, hmat.originalLength, hmat.payload_length, hmat.received_length,
        hmat.count, hmat.pieces⟩
  have hclear := hmat.flag_eq_false hi hold
  have hget : e.received.getD i.toNat false = false := by simp [List.getD, hclear]
  have hnew : ¬r.Has m.messageId i.toNat := fun h => hold ((hflags _).mpr h)
  have hstore := hmat.store hm hi hclear now
  have hhas := has_put_store hmat hi hother hflags now
  simp only [hget, Bool.false_eq_true, if_false, not_lt.mpr (hmat.fits hm hi)]
  by_cases hfull : (e.store now (m.piece i)).receivedCount = (e.store now (m.piece i)).fragmentCount
  · obtain ⟨hall, hmsg⟩ := hstore.message_eq hm hfull
    have hrest : ∀ j < m.fragmentCount.toNat, j ≠ i.toNat → r.Has m.messageId j := by
      intro j hj hne
      have := (hhas m.messageId j).mp ⟨_, by rw [lookup_put, if_pos rfl], hall j hj⟩
      tauto
    simp only [hfull, if_true, hmsg]
    cases hcall : onComplete m s with
    | mk rc s' =>
      cases rc with
      | error err => exact ⟨.failed err _ s' hnew hrest hcall hhas, hput _ hstore, hcfg⟩
      | ok u =>
        refine ⟨.completed _ s' hnew hrest hcall ?_, ?_, ?_⟩
        · intro id j
          unfold Has
          simp only [lookup_drop]
          by_cases hidm : id = m.messageId
          · simp [hidm]
          · simp only [hidm, if_false, lookup_put, hother id hidm, ne_eq, not_false_eq_true,
              true_and]
        · intro id x hx
          rw [lookup_drop] at hx
          split_ifs at hx with hidm
          exact hput _ hstore id x hx
        · rw [drop_cfg]
          exact hcfg
  · simp only [hfull, if_false]
    refine ⟨.stored _ hnew ?_ hhas, hput _ hstore, hcfg⟩
    -- Were every flag set, the count would be full.
    by_contra hno
    push Not at hno
    apply hfull
    apply UInt16.toNat_inj.mp
    rw [hstore.count, hstore.fragmentCount, ← hstore.received_length]
    apply List.count_eq_length.mpr
    intro b hb
    obtain ⟨j, hj, rfl⟩ := List.getElem_of_mem hb
    obtain ⟨e', he', hj'⟩ := hno j (by rwa [hstore.received_length] at hj)
    rw [lookup_put, if_pos rfl, Option.some.injEq] at he'
    rw [← he', List.getElem?_eq_getElem hj, Option.some.injEq] at hj'
    exact hj'.symm

/-- The environment of a reassembler is touched by at most one completion. -/
theorem accept_state (now : UInt64) (f : FragmentView)
    (onComplete : FragmentedMessage → σ → Result Unit × σ) (r : FragmentReassembler) (s : σ) :
    (r.accept now f onComplete s).2.2 = s ∨
      ∃ m, (r.accept now f onComplete s).2.2 = (onComplete m s).2 := by
  unfold accept
  cases checkFragment r.cfg f with
  | error e => exact Or.inl rfl
  | ok u =>
    cases r.openEntry now f with
    | error e => exact Or.inl rfl
    | ok er =>
      dsimp only
      split_ifs
      · exact Or.inl rfl
      · exact Or.inl rfl
      · exact Or.inl rfl
      · right
        refine ⟨(er.1.store now f).message, ?_⟩
        cases onComplete (er.1.store now f).message s with
        | mk rc s' => cases rc <;> rfl
      · exact Or.inl rfl

/-- The first piece of all completes its message only if there is no other. -/
theorem accept_state_of_empty (hr : r.entries = ∅) (now : UInt64) (f : FragmentView)
    (onComplete : FragmentedMessage → σ → Result Unit × σ) (s : σ) :
    (r.accept now f onComplete s).2.2 = s ∨
      ∃ m, (r.accept now f onComplete s).2.2 = (onComplete m s).2 ∧ f.fragmentCount = 1 ∧
        m.payload.length = f.originalLength.toNat := by
  unfold accept
  cases checkFragment r.cfg f with
  | error e => exact Or.inl rfl
  | ok u =>
    have hopen : (∃ e, r.openEntry now f = .error e) ∨
        ∃ r', r.openEntry now f = .ok (ReassemblyEntry.fresh now f, r') := by
      unfold openEntry
      rw [hr, AList.lookup_empty]
      dsimp only
      split_ifs
      · exact Or.inl ⟨_, rfl⟩
      · exact Or.inl ⟨_, rfl⟩
      · exact Or.inr ⟨_, rfl⟩
    rcases hopen with ⟨e, he⟩ | ⟨r', he⟩
    · rw [he]
      exact Or.inl rfl
    rw [he]
    dsimp only
    split_ifs with hmeta hdup hbuf hdone
    · exact Or.inl rfl
    · exact Or.inl rfl
    · exact Or.inl rfl
    · right
      refine ⟨((ReassemblyEntry.fresh now f).store now f).message, ?_, ?_, ?_⟩
      · cases onComplete ((ReassemblyEntry.fresh now f).store now f).message s with
        | mk rc s' => cases rc <;> rfl
      · exact hdone.symm
      · have hlen : (ReassemblyEntry.fresh now f).payload.length = f.originalLength.toNat :=
          List.length_replicate
        rw [← hlen]
        exact length_paste (not_lt.mp hbuf)
    · exact Or.inl rfl

/-- Without room a piece is refused and nothing changes. -/
theorem accept_of_not_admits (hr : Consistent A r) (hA : A m.messageId = some m) (hm : m.Sendable)
    (hi : i < m.fragmentCount) (now : UInt64) (onComplete : FragmentedMessage → σ → Result Unit × σ)
    (s : σ) (h : ¬r.Admits m) :
    ∃ e : Failure, r.accept now (m.piece i) onComplete s = (.error e, r, s) := by
  unfold accept
  rcases checkFragment_piece hm hi r.cfg with ⟨hc, h1, h2, h3⟩ | ⟨-, err, hc, -⟩
  swap
  · rw [hc]
    exact ⟨err, rfl⟩
  rw [hc]
  rcases openEntry_piece hm i now fun e => hr.matches hA with ⟨err, ho, -, -⟩ | ⟨e, r', hroom, -⟩
  · rw [ho]
    exact ⟨err, rfl⟩
  · exact absurd ⟨h1, h2, h3, hroom⟩ h

theorem lookup_foldl_drop (ids : List UInt64) (r : FragmentReassembler) (id : UInt64) :
    (ids.foldl (fun r id => r.drop id) r).entries.lookup id =
      if id ∈ ids then none else r.entries.lookup id := by
  induction ids generalizing r with
  | nil => simp
  | cons x xs ih =>
    rw [List.foldl_cons, ih, lookup_drop]
    by_cases hx : id = x
    · simp [hx]
    · simp [hx]

theorem cfg_foldl_drop (ids : List UInt64) (r : FragmentReassembler) :
    (ids.foldl (fun r id => r.drop id) r).cfg = r.cfg := by
  induction ids generalizing r with
  | nil => rfl
  | cons x xs ih =>
    rw [List.foldl_cons, ih]
    exact drop_cfg x r

theorem expireOld_cfg (now : UInt64) (r : FragmentReassembler) : (r.expireOld now).cfg = r.cfg :=
  cfg_foldl_drop _ r

theorem lookup_expireOld {now id : UInt64} (h : (r.expireOld now).entries.lookup id = some e) :
    r.entries.lookup id = some e := by
  unfold expireOld at h
  rw [lookup_foldl_drop] at h
  split_ifs at h
  exact h

theorem Consistent.expireOld (h : Consistent A r) (now : UInt64) : Consistent A (r.expireOld now) :=
  fun id e he => h id e (lookup_expireOld he)

end FragmentReassembler

end SecureCnet
