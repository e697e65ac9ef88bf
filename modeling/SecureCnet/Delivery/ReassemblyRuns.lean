import SecureCnet.Delivery.Reassembler

/-!
# Runs of the reassembler

Pieces of several messages arrive in any order, interleaved and repeated. As long as there
is room, every message whose pieces have all arrived was handed over once, by its last
missing piece, exactly as it was cut.
-/

namespace SecureCnet

namespace FragmentedMessage

variable {m : FragmentedMessage} {i : UInt16}

/-- The piece of a message at an index, with the size the source gives it. -/
def cutAt (m : FragmentedMessage) (i : UInt16) : FragmentView :=
  ⟨m.messageId, m.deliverySequence, m.channel, m.type, i, fragmentCountForLength m.originalLength,
    m.originalLength, (m.payload.drop (i.toNat * NetConfig.maxFragmentDataBytes)).take
      (fragmentSizeForIndex m.originalLength i).toNat⟩

/-- A piece written by one end and read by the other. -/
def transmit (m : FragmentedMessage) (i : UInt16) : Result FragmentView := do
  let w ← writeFragmentPayload ⟨NetConfig.maxMessageBytes, []⟩ (m.cutAt i)
  readFragmentPayload w.out

theorem cutAt_eq (hm : m.Sendable) (hi : i < m.fragmentCount) : m.cutAt i = m.piece i := by
  have hi' := UInt16.lt_iff_toNat_lt.mp hi
  have hsize := fragmentSizeForIndex_toNat hi'
  rw [hm.originalLength_toNat] at hsize
  unfold cutAt piece Chunks.chunk
  rw [hsize, NetConfig.maxFragmentDataBytes_eq]
  congr 1
  rw [List.take_eq_take_iff, List.length_drop]
  omega

theorem transmit_eq (hm : m.Sendable) (hi : i < m.fragmentCount) :
    m.transmit i = .ok (m.piece i) := by
  have hw := hm.piece_wellFormed hi
  have hfits : (m.piece i).encode.length ≤ NetConfig.maxMessageBytes := by
    have hle := hw.data_le
    rw [FragmentView.length_encode, NetConfig.maxMessageBytes_eq]
    omega
  unfold transmit
  rw [cutAt_eq hm hi, writeFragmentPayload_eq hw, ByteWriter.writeBytes_fresh, if_pos hfits,
    Result.ok_bind]
  exact readFragmentPayload_eq_ok.mpr ⟨rfl, hw⟩

end FragmentedMessage

namespace FragmentReassembler

/-- A piece of a message arrives. -/
structure Arrival where
  now : UInt64
  message : FragmentedMessage
  index : UInt16
  deriving DecidableEq

section Arrivals

variable {σ : Type} (onComplete : FragmentedMessage → σ → Result Unit × σ)

def arrive (a : Arrival) (r : FragmentReassembler) (s : σ) : Report × FragmentReassembler × σ :=
  match a.message.transmit a.index with
  | .error e => ({ rc := .error e }, r, s)
  | .ok f => r.acceptWith a.now f onComplete s

def arriveAll : List Arrival → FragmentReassembler → σ → FragmentReassembler × σ
  | [], r, s => (r, s)
  | a :: l, r, s => arriveAll l (r.arrive onComplete a s).2.1 (r.arrive onComplete a s).2.2

theorem arriveAll_append (l : List Arrival) (a : Arrival) (r : FragmentReassembler) (s : σ) :
    arriveAll onComplete (l ++ [a]) r s =
      ((arriveAll onComplete l r s).1.arrive onComplete a (arriveAll onComplete l r s).2).2 := by
  induction l generalizing r s with
  | nil => rfl
  | cons b l ih => exact ih _ _

/-- A callback that also lists the messages it is given. -/
def recording (m : FragmentedMessage) (s : σ × List FragmentedMessage) :
    Result Unit × σ × List FragmentedMessage :=
  let (rc, t) := onComplete m s.1
  (rc, t, s.2 ++ [m])

end Arrivals

/-- Piece `i` of a message is among the arrivals. -/
def Arrived (l : List Arrival) (m : FragmentedMessage) (i : ℕ) : Prop :=
  ∃ a ∈ l, a.message = m ∧ a.index.toNat = i

instance (l : List Arrival) (m : FragmentedMessage) (i : ℕ) : Decidable (Arrived l m i) :=
  inferInstanceAs (Decidable (∃ a ∈ l, _))

/-- All pieces of a message are. -/
def Complete (l : List Arrival) (m : FragmentedMessage) : Prop :=
  ∀ i < m.fragmentCount.toNat, Arrived l m i

instance (l : List Arrival) (m : FragmentedMessage) : Decidable (Complete l m) :=
  inferInstanceAs (Decidable (∀ i < _, _))

/-- Messages with distinct ids that can be cut and are not too long. -/
structure Valid (cfg : FragmentationConfig) (ms : List FragmentedMessage) : Prop where
  ids : (ms.map fun m => m.messageId).Nodup
  messageId_ne : ∀ m ∈ ms, m.messageId ≠ 0
  application : ∀ m ∈ ms, m.channel.isApplication = true
  length : ∀ m ∈ ms, 1 ≤ m.payload.length ∧
    m.payload.length ≤ cfg.maxReassembledMessageBytes.toNat

/-- Arrivals of pieces of the messages, none of a message whose pieces are all there, each of
them with room for its message. -/
structure Orderly {σ : Type} (cfg : FragmentationConfig) (ms : List FragmentedMessage)
    (onComplete : FragmentedMessage → σ → Result Unit × σ) (s : σ) (l : List Arrival) : Prop where
  pieces : ∀ a ∈ l, a.message ∈ ms ∧ a.index < a.message.fragmentCount
  timely : ∀ before a after, l = before ++ a :: after → ¬Complete before a.message
  room : ∀ before a after, l = before ++ a :: after →
    (arriveAll onComplete before { cfg } s).1.HasRoom a.message

variable {σ : Type} {onComplete : FragmentedMessage → σ → Result Unit × σ}
  {r : FragmentReassembler} {m : FragmentedMessage} {i : UInt16}
  {A : UInt64 → Option FragmentedMessage}

/-- A piece the limits let in is a duplicate, or new. -/
theorem acceptWith_new_or_duplicate (hr : Consistent A r) (hA : A m.messageId = some m)
    (hm : m.Sendable) (hi : i < m.fragmentCount) (hadm : r.Admits m)
    (hok : ∀ m s, (onComplete m s).1 = .ok ()) (now : UInt64) (s : σ) :
    (r.Has m.messageId i.toNat ∧ ∃ e, r.entries.lookup m.messageId = some e ∧
        r.acceptWith now (m.piece i) onComplete s =
          ({ rc := .ok (), duplicate := true },
            r.put m.messageId { e with lastUpdateMs := now }, s)) ∨
      (¬r.Has m.messageId i.toNat ∧
        ((r.acceptWith now (m.piece i) onComplete s).1 = { rc := .ok (), completed := true } ∧
            (r.acceptWith now (m.piece i) onComplete s).2.1.entries.lookup m.messageId = none ∨
          (r.acceptWith now (m.piece i) onComplete s).1 = { rc := .ok () } ∧
            (r.acceptWith now (m.piece i) onComplete s).2.1.Has m.messageId i.toNat)) := by
  have hid : (m.piece i).messageId = m.messageId := rfl
  have hix : (m.piece i).fragmentIndex = i := rfl
  unfold acceptWith
  rcases checkFragment_piece hm hi r.cfg with ⟨hc, -⟩ | ⟨hwhy, -⟩
  swap
  · exact absurd ⟨hadm.1, hadm.2.1, hadm.2.2.1⟩ hwhy
  rw [hc]
  rcases openEntry_piece hm i now fun e => hr.matches hA with
    ⟨err, ho, hcode, hwhy⟩ | ⟨e, r', -, ho, hmat, hcfg, hother, hflags⟩
  · exact absurd hadm.2.2.2 hwhy
  by_cases hold : e.received[i.toNat]? = some true
  · -- A flagged piece has an entry, which is the one found.
    have hhas := (hflags _).mp hold
    obtain ⟨e₀, hl, -⟩ := (hflags _).mp hold
    have hopen : r.openEntry now (m.piece i) = .ok (e₀, r) := by
      unfold openEntry
      rw [hid, hl]
    rw [hopen] at ho
    obtain ⟨rfl, rfl⟩ : e₀ = e ∧ r = r' := by simpa using ho
    have hget : e₀.received.getD i.toNat false = true := by simp [List.getD, hold]
    refine Or.inl ⟨hhas, e₀, hl, ?_⟩
    rw [hopen]
    simp only [hmat.sameMetadata i, Bool.not_true, Bool.false_eq_true, if_false, hid, hix, hget,
      if_true]
  have hclear := hmat.flag_eq_false hi hold
  have hget : e.received.getD i.toNat false = false := by simp [List.getD, hclear]
  refine Or.inr ⟨fun h => hold ((hflags _).mpr h), ?_⟩
  rw [ho]
  simp only [hmat.sameMetadata i, Bool.not_true, Bool.false_eq_true, if_false, hid, hix, hget,
    not_lt.mpr (hmat.fits hm hi)]
  by_cases hfull : (e.store now (m.piece i)).receivedCount = (e.store now (m.piece i)).fragmentCount
  · have hrc := hok (e.store now (m.piece i)).message s
    simp only [hfull, if_true]
    cases hcall : onComplete (e.store now (m.piece i)).message s with
    | mk rc s' =>
      rw [hcall] at hrc
      subst hrc
      left
      exact ⟨rfl, by rw [lookup_drop, if_pos rfl]⟩
  · simp only [hfull, if_false]
    right
    exact ⟨trivial, (has_put_store hmat hi hother hflags now _ _).mpr (Or.inr ⟨rfl, rfl⟩)⟩

/-- What a piece the limits let in does, with the flags. -/
inductive ArrivePiece (r : FragmentReassembler) (m : FragmentedMessage) (i : ℕ) (now : UInt64)
    (onComplete : FragmentedMessage → σ → Result Unit × σ) (s : σ) :
    Report → FragmentReassembler → σ → Prop
  | duplicate (e : ReassemblyEntry) (hold : r.Has m.messageId i)
      (he : r.entries.lookup m.messageId = some e)
      (hhas : ∀ id j, (r.put m.messageId { e with lastUpdateMs := now }).Has id j ↔ r.Has id j) :
      ArrivePiece r m i now onComplete s { rc := .ok (), duplicate := true }
        (r.put m.messageId { e with lastUpdateMs := now }) s
  | stored (r' : FragmentReassembler) (hnew : ¬r.Has m.messageId i)
      (hmissing : ∃ j < m.fragmentCount.toNat, j ≠ i ∧ ¬r.Has m.messageId j)
      (hhas : ∀ id j, r'.Has id j ↔ r.Has id j ∨ id = m.messageId ∧ j = i) :
      ArrivePiece r m i now onComplete s { rc := .ok () } r' s
  | completed (r' : FragmentReassembler) (hnew : ¬r.Has m.messageId i)
      (hrest : ∀ j < m.fragmentCount.toNat, j ≠ i → r.Has m.messageId j)
      (hhas : ∀ id j, r'.Has id j ↔ id ≠ m.messageId ∧ r.Has id j) :
      ArrivePiece r m i now onComplete s { rc := .ok (), completed := true } r'
        (onComplete m s).2

/-- The flags tell which of the cases of `accept_piece` it was. -/
theorem acceptWith_piece (hr : Consistent A r) (hA : A m.messageId = some m)
    (hm : m.Sendable) (hi : i < m.fragmentCount) (hadm : r.Admits m)
    (hok : ∀ m s, (onComplete m s).1 = .ok ()) (now : UInt64) (s : σ) :
    ArrivePiece r m i.toNat now onComplete s (r.acceptWith now (m.piece i) onComplete s).1
        (r.acceptWith now (m.piece i) onComplete s).2.1
        (r.acceptWith now (m.piece i) onComplete s).2.2 ∧
      Consistent A (r.acceptWith now (m.piece i) onComplete s).2.1 ∧
      (r.acceptWith now (m.piece i) onComplete s).2.1.cfg = r.cfg := by
  have hflags := acceptWith_new_or_duplicate hr hA hm hi hadm hok now s
  obtain ⟨hpiece, hcons, hcfg⟩ := accept_piece hr hA hm hi now onComplete s
  rw [← acceptWith_eq] at hpiece hcons hcfg
  refine ⟨?_, hcons, hcfg⟩
  generalize r.acceptWith now (m.piece i) onComplete s = result at hflags hpiece
  obtain ⟨report, r', s'⟩ := result
  dsimp only at hflags hpiece ⊢
  generalize hrc : report.rc = rc at hpiece
  cases hpiece with
  | refused e hcode hwhy => exact absurd hadm hwhy
  | failed e _ _ hnew hrest hdone hhas =>
    have hrc := hok m s
    rw [hdone] at hrc
    simp at hrc
  | duplicate _ hold hhas =>
    obtain ⟨-, e, he, heq⟩ | ⟨hnew, -⟩ := hflags
    · rw [Prod.mk.injEq, Prod.mk.injEq] at heq
      obtain ⟨rfl, rfl, -⟩ := heq
      exact .duplicate e hold he hhas
    · exact absurd hold hnew
  | stored _ hnew hmissing hhas =>
    obtain ⟨hold, -⟩ | ⟨-, ⟨-, hnone⟩ | ⟨rfl, -⟩⟩ := hflags
    · exact absurd hold hnew
    · -- A closed entry has no flags.
      obtain ⟨e, he, -⟩ := (hhas _ _).mpr (Or.inr ⟨rfl, rfl⟩)
      rw [hnone] at he
      simp at he
    · refine .stored r' hnew ?_ hhas
      obtain ⟨j, hj, hmiss⟩ := hmissing
      rw [hhas, not_or, not_and] at hmiss
      exact ⟨j, hj, hmiss.2 rfl, hmiss.1⟩
  | completed _ _ hnew hrest hdone hhas =>
    obtain ⟨hold, -⟩ | ⟨-, ⟨rfl, -⟩ | ⟨-, hstill⟩⟩ := hflags
    · exact absurd hold hnew
    · have hs : s' = (onComplete m s).2 := by rw [hdone]
      rw [hs]
      exact .completed r' hnew hrest hhas
    · exact absurd rfl ((hhas _ _).mp hstill).1

section Progress

variable {cfg : FragmentationConfig} {ms : List FragmentedMessage} {l : List Arrival} {a : Arrival}

theorem arrived_append (j : ℕ) :
    Arrived (l ++ [a]) m j ↔ Arrived l m j ∨ a.message = m ∧ a.index.toNat = j := by
  simp [Arrived, or_and_right, exists_or]

theorem complete_append_of_ne (h : m ≠ a.message) : Complete (l ++ [a]) m ↔ Complete l m := by
  simp only [Complete, arrived_append, Ne.symm h, false_and, or_false]

theorem complete_append :
    Complete (l ++ [a]) a.message ↔
      ∀ j < a.message.fragmentCount.toNat, j ≠ a.index.toNat → Arrived l a.message j := by
  simp only [Complete, arrived_append, true_and]
  refine forall₂_congr fun j _ => ?_
  rw [or_comm, ne_comm, ne_eq, or_iff_not_imp_left]

/-- A validated configuration that fragments has limits a valid message fits. -/
theorem Valid.sendable (hv : Valid cfg ms) (hcfg : validateFragmentationConfig cfg = .ok ())
    (hen : cfg.enabled = true) (hm : m ∈ ms) :
    m.Sendable ∧ m.fragmentCount ≤ cfg.maxFragmentsPerMessage ∧
      m.originalLength.toNat ≤ cfg.maxReassembledMessageBytes.toNat := by
  obtain ⟨hpos, hle⟩ := hv.length m hm
  unfold validateFragmentationConfig at hcfg
  simp only [hen, Bool.not_true, Bool.false_eq_true, if_false, Result.bind_eq_ok, reject_eq_ok,
    exists_and_left, exists_const, decide_eq_false_iff_not, Bool.or_eq_false_iff,
    NetConfig.maxFragmentDataBytes_eq] at hcfg
  obtain ⟨-, ⟨-, hwire⟩, hcount, -⟩ := hcfg
  have hbytes : cfg.maxReassembledMessageBytes.toNat ≤ 0xFFFF :=
    UInt32.le_iff_toNat_le.mp (UInt32.not_lt.mp hwire)
  have hm' : m.Sendable := by
    refine ⟨hv.messageId_ne m hm, ?_, hpos, by omega⟩
    simpa [Channel.isApplication] using hv.application m hm
  have hlen := hm'.originalLength_toNat
  have hcount' : (cfg.maxReassembledMessageBytes.toNat + 1212 - 1) / 1212 ≤
      cfg.maxFragmentsPerMessage.toNat := not_lt.mp (of_decide_eq_false hcount)
  refine ⟨hm', UInt16.le_iff_toNat_le.mpr ?_, by omega⟩
  rw [hm'.fragmentCount_toNat]
  omega

/-- The message of an id. -/
def byId (ms : List FragmentedMessage) (id : UInt64) : Option FragmentedMessage :=
  ms.find? fun m => m.messageId = id

theorem Valid.byId_eq (hv : Valid cfg ms) (hm : m ∈ ms) : byId ms m.messageId = some m := by
  have hids := hv.ids
  clear hv
  unfold byId
  induction ms with
  | nil => simp at hm
  | cons m' ms ih =>
    rw [List.map_cons, List.nodup_cons] at hids
    rcases List.mem_cons.mp hm with rfl | htail
    · simp
    · have hne : m'.messageId ≠ m.messageId := by
        intro heq
        exact hids.1 (heq ▸ List.mem_map_of_mem htail)
      rw [List.find?_cons_of_neg (by simpa using hne)]
      exact ih htail hids.2

/-- The entries hold what arrived of the messages still incomplete, and the log has each
complete message once. -/
structure Progress (cfg : FragmentationConfig) (ms : List FragmentedMessage) (l : List Arrival)
    (r : FragmentReassembler) (log : List FragmentedMessage) : Prop where
  cfg_eq : r.cfg = cfg
  consistent : Consistent (byId ms) r
  has : ∀ m ∈ ms, ∀ j, r.Has m.messageId j ↔ Arrived l m j ∧ ¬Complete l m
  count : ∀ m ∈ ms, log.count m = if Complete l m then 1 else 0
  subset : log ⊆ ms

theorem progress_nil (hv : Valid cfg ms) (hcfg : validateFragmentationConfig cfg = .ok ())
    (hen : cfg.enabled = true) : Progress cfg ms [] { cfg } [] where
  cfg_eq := rfl
  consistent := consistent_empty _ cfg
  has := by simp [Has, Arrived]
  count := by
    intro m hm
    obtain ⟨hs, -⟩ := hv.sendable hcfg hen hm
    have hlen := hs.nonempty
    have hnot : ¬Complete [] m := by
      intro h
      obtain ⟨a, ha, -⟩ := h 0 (by rw [hs.fragmentCount_toNat]; omega)
      simp at ha
    rw [if_neg hnot, List.count_nil]
  subset := List.nil_subset _

theorem Progress.has_of_ne {log : List FragmentedMessage} (h : Progress cfg ms l r log)
    (hne : m ≠ a.message) (hm : m ∈ ms) (j : ℕ) :
    r.Has m.messageId j ↔ Arrived (l ++ [a]) m j ∧ ¬Complete (l ++ [a]) m := by
  rw [h.has m hm, arrived_append, complete_append_of_ne hne]
  simp [Ne.symm hne]

/-- One arrival of a piece of an incomplete message, with room for it. -/
theorem Progress.arrive {s : σ × List FragmentedMessage} (h : Progress cfg ms l r s.2)
    (hcfg : validateFragmentationConfig cfg = .ok ()) (hen : cfg.enabled = true)
    (hv : Valid cfg ms) (hok : ∀ m s, (onComplete m s).1 = .ok ()) (ha : a.message ∈ ms)
    (hi : a.index < a.message.fragmentCount) (hnot : ¬Complete l a.message)
    (hroom : r.HasRoom a.message) :
    Progress cfg ms (l ++ [a]) (r.arrive (recording onComplete) a s).2.1
        (r.arrive (recording onComplete) a s).2.2.2 ∧
      (r.arrive (recording onComplete) a s).1 =
        ⟨.ok (), Arrived l a.message a.index.toNat, Complete (l ++ [a]) a.message⟩ ∧
      (r.arrive (recording onComplete) a s).2.2 =
        (if Complete (l ++ [a]) a.message then (recording onComplete a.message s).2 else s) ∧
      (Arrived l a.message a.index.toNat → ∃ e, r.entries.lookup a.message.messageId = some e ∧
        (r.arrive (recording onComplete) a s).2.1 =
          r.put a.message.messageId { e with lastUpdateMs := a.now }) := by
  obtain ⟨hm, hcount, hbytes⟩ := hv.sendable hcfg hen ha
  have hadm : r.Admits a.message := by
    refine ⟨?_, ?_, ?_, hroom⟩
    · rw [h.cfg_eq]
      exact hen
    · rw [h.cfg_eq]
      exact hcount
    · rw [h.cfg_eq]
      exact hbytes
  have hhas : ∀ j, r.Has a.message.messageId j ↔ Arrived l a.message j := by
    intro j
    rw [h.has _ ha]
    exact and_iff_left hnot
  have hne : ∀ m ∈ ms, m ≠ a.message → m.messageId ≠ a.message.messageId := by
    intro m hm hne heq
    have hid := hv.byId_eq hm
    rw [heq, hv.byId_eq ha, Option.some.injEq] at hid
    exact hne hid.symm
  have hstep : r.arrive (recording onComplete) a s =
      r.acceptWith a.now (a.message.piece a.index) (recording onComplete) s := by
    unfold FragmentReassembler.arrive
    rw [FragmentedMessage.transmit_eq hm hi]
  have hrec : ∀ m s, (recording onComplete m s).1 = .ok () := fun m s => hok m s.1
  obtain ⟨hpiece, hcons, hcfg'⟩ :=
    acceptWith_piece h.consistent (hv.byId_eq ha) hm hi hadm hrec a.now s
  rw [hstep]
  generalize r.acceptWith a.now (a.message.piece a.index) (recording onComplete) s = result
    at hpiece hcons hcfg'
  obtain ⟨report, r', s'⟩ := result
  dsimp only at hpiece hcons hcfg' ⊢
  rw [h.cfg_eq] at hcfg'
  cases hpiece with
  | duplicate e hold he hsame =>
    have hin := (hhas _).mp hold
    have harr : ∀ j, Arrived (l ++ [a]) a.message j ↔ Arrived l a.message j := by
      intro j
      rw [arrived_append]
      refine or_iff_left_of_imp ?_
      rintro ⟨-, rfl⟩
      exact hin
    have hcomp : ∀ m, Complete (l ++ [a]) m ↔ Complete l m := by
      intro m
      by_cases hma : m = a.message
      · subst hma
        simp only [Complete, harr]
      · exact complete_append_of_ne hma
    refine ⟨⟨hcfg', hcons, ?_, ?_, h.subset⟩, ?_, ?_, fun _ => ⟨e, he, rfl⟩⟩
    · intro m hmem j
      rw [hsame]
      by_cases hma : m = a.message
      · subst hma
        rw [hcomp, harr]
        exact h.has _ ha j
      · exact h.has_of_ne hma hmem j
    · intro m hmem
      rw [h.count m hmem]
      simp only [hcomp]
    · simp [hin, hcomp, hnot]
    · rw [if_neg (by rw [hcomp]; exact hnot)]
  | stored _ hnew hmissing hsame =>
    rw [hhas] at hnew
    have hopen : ¬Complete (l ++ [a]) a.message := by
      obtain ⟨j, hj, hji, hmiss⟩ := hmissing
      rw [complete_append]
      exact fun hall => hmiss ((hhas j).mpr (hall j hj hji))
    refine ⟨⟨hcfg', hcons, ?_, ?_, h.subset⟩, ?_, ?_, fun hin => absurd hin hnew⟩
    · intro m hmem j
      rw [hsame]
      by_cases hma : m = a.message
      · subst hma
        rw [hhas, arrived_append]
        simp [hopen, eq_comm]
      · rw [h.has_of_ne hma hmem j]
        simp [hne m hmem hma]
    · intro m hmem
      rw [h.count m hmem]
      by_cases hma : m = a.message
      · subst hma
        rw [if_neg hnot, if_neg hopen]
      · simp only [complete_append_of_ne hma]
    · simp [hnew, hopen]
    · rw [if_neg hopen]
  | completed _ hnew hrest hsame =>
    rw [hhas] at hnew
    have hdone : Complete (l ++ [a]) a.message := by
      rw [complete_append]
      exact fun j hj hji => (hhas j).mp (hrest j hj hji)
    refine ⟨⟨hcfg', hcons, ?_, ?_, ?_⟩, ?_, ?_, fun hin => absurd hin hnew⟩
    · intro m hmem j
      rw [hsame]
      by_cases hma : m = a.message
      · subst hma
        simp [hdone]
      · rw [h.has_of_ne hma hmem j]
        simp [hne m hmem hma]
    · intro m hmem
      change (s.2 ++ [a.message]).count m = _
      rw [List.count_append, h.count m hmem]
      by_cases hma : m = a.message
      · subst hma
        rw [if_neg hnot, if_pos hdone, List.count_singleton_self]
      · simp only [complete_append_of_ne hma]
        simp [Ne.symm hma]
    · exact List.append_subset.mpr ⟨h.subset, by simpa using ha⟩
    · simp [hnew, hdone]
    · rw [if_pos hdone]

theorem Orderly.first {s : σ} {before after : List Arrival}
    (h : Orderly cfg ms onComplete s (before ++ a :: after)) :
    Orderly cfg ms onComplete s before where
  pieces b hb := h.pieces b (List.mem_append_left _ hb)
  timely l b rest heq := h.timely l b (rest ++ a :: after) (by simp [heq])
  room l b rest heq := h.room l b (rest ++ a :: after) (by simp [heq])

/-- The progress of a whole run. -/
theorem Orderly.progress (hcfg : validateFragmentationConfig cfg = .ok ())
    (hen : cfg.enabled = true) (hv : Valid cfg ms) (hok : ∀ m s, (onComplete m s).1 = .ok ())
    (s : σ) (h : Orderly cfg ms (recording onComplete) (s, []) l) :
    Progress cfg ms l (arriveAll (recording onComplete) l { cfg } (s, [])).1
      (arriveAll (recording onComplete) l { cfg } (s, [])).2.2 := by
  -- The arrivals are taken in at the end of the list.
  induction l using List.reverseRecOn with
  | nil => exact progress_nil hv hcfg hen
  | append_singleton l a ih =>
    have hpiece := h.pieces a (by simp)
    have hstep := (ih h.first).arrive hcfg hen hv hok hpiece.1 hpiece.2
      (h.timely l a [] rfl) (h.room l a [] rfl)
    rw [arriveAll_append]
    exact hstep.1

/-- Pieces of valid messages arrive in any order, interleaved and repeated. Every message
whose pieces have all arrived, and no other, was handed over once. Each piece is read back as
it was cut; it is reported as a duplicate exactly when it had arrived before, and then only
the time of its entry changes; its message is handed over, as it was, exactly when it is the
last missing one. -/
theorem reassembles_in_any_order (cfg : FragmentationConfig)
    (hcfg : validateFragmentationConfig cfg = .ok ()) (hen : cfg.enabled = true)
    (ms : List FragmentedMessage) (hv : Valid cfg ms) {σ : Type}
    (onComplete : FragmentedMessage → σ → Result Unit × σ)
    (hok : ∀ m s, (onComplete m s).1 = .ok ()) (s : σ) (l : List Arrival)
    (h : Orderly cfg ms (recording onComplete) (s, []) l) :
    (∀ m ∈ ms, (arriveAll (recording onComplete) l { cfg } (s, [])).2.2.count m =
        if Complete l m then 1 else 0) ∧
      (arriveAll (recording onComplete) l { cfg } (s, [])).2.2 ⊆ ms ∧
      ∀ before a after, l = before ++ a :: after →
        let state := arriveAll (recording onComplete) before { cfg } (s, [])
        let next := state.1.arrive (recording onComplete) a state.2
        a.message.transmit a.index = .ok (a.message.piece a.index) ∧
          next.1 = ⟨.ok (), Arrived before a.message a.index.toNat,
            Complete (before ++ [a]) a.message⟩ ∧
          next.2.2 = (if Complete (before ++ [a]) a.message
            then ((onComplete a.message state.2.1).2, state.2.2 ++ [a.message]) else state.2) ∧
          (Arrived before a.message a.index.toNat →
            ∃ e, state.1.entries.lookup a.message.messageId = some e ∧
              next.2 =
                (state.1.put a.message.messageId { e with lastUpdateMs := a.now }, state.2)) := by
  have hprogress := h.progress hcfg hen hv hok s
  refine ⟨hprogress.count, hprogress.subset, ?_⟩
  rintro before a after rfl
  have hpiece := h.pieces a (by simp)
  have hopen := h.timely before a after rfl
  obtain ⟨-, hreport, hstate, hdup⟩ := (h.first.progress hcfg hen hv hok s).arrive hcfg hen hv hok
    hpiece.1 hpiece.2 hopen (h.room before a after rfl)
  refine ⟨FragmentedMessage.transmit_eq (hv.sendable hcfg hen hpiece.1).1 hpiece.2, hreport,
    hstate, ?_⟩
  intro hin
  obtain ⟨e, he, hput⟩ := hdup hin
  -- A repeated piece completes nothing.
  have hnot : ¬Complete (before ++ [a]) a.message := by
    rw [complete_append]
    refine fun hall => hopen fun j hj => ?_
    by_cases hji : j = a.index.toNat
    · rw [hji]
      exact hin
    · exact hall j hj hji
  rw [if_neg hnot] at hstate
  exact ⟨e, he, Prod.ext hput hstate⟩

end Progress

theorem orderly_of_take {σ : Type} {cfg : FragmentationConfig} {ms : List FragmentedMessage}
    {onComplete : FragmentedMessage → σ → Result Unit × σ} {s : σ} {l : List Arrival}
    (h : ∀ k < l.length, ∀ a ∈ l[k]?, a.message ∈ ms ∧ a.index < a.message.fragmentCount ∧
      ¬Complete (l.take k) a.message ∧
      (arriveAll onComplete (l.take k) { cfg } s).1.HasRoom a.message) :
    Orderly cfg ms onComplete s l := by
  have hsplit : ∀ before a after, l = before ++ a :: after → a.message ∈ ms ∧
      a.index < a.message.fragmentCount ∧ ¬Complete before a.message ∧
      (arriveAll onComplete before { cfg } s).1.HasRoom a.message := by
    rintro before a after rfl
    have hk := h before.length (by simp) a (by simp)
    rwa [List.take_left] at hk
  refine ⟨fun a ha => ?_, fun before a after heq => (hsplit before a after heq).2.2.1,
    fun before a after heq => (hsplit before a after heq).2.2.2⟩
  obtain ⟨before, after, heq⟩ := List.append_of_mem ha
  exact ⟨(hsplit before a after heq).1, (hsplit before a after heq).2.1⟩

def long : FragmentedMessage := ⟨7, 3, .reliableOrdered, 2, List.replicate 1300 5⟩

def short : FragmentedMessage := ⟨9, 0, .unreliable, 1, [1, 2, 3]⟩

/-- The second piece of `long` arrives twice, and the other message before the first. -/
def shuffled : List Arrival := [⟨10, long, 1⟩, ⟨11, long, 1⟩, ⟨12, short, 0⟩, ⟨13, long, 0⟩]

def keep (_ : FragmentedMessage) (s : Unit) : Result Unit × Unit := (.ok (), s)

theorem valid_long_short : Valid {} [long, short] where
  ids := by decide
  messageId_ne := by decide
  application := by decide
  length := by decide +kernel

theorem reassembles_in_any_order_shuffled :
    (∀ m ∈ [long, short], (arriveAll (recording keep) shuffled {} ((), [])).2.2.count m = 1) ∧
      (arriveAll (recording keep) shuffled {} ((), [])).2.2 ⊆ [long, short] := by
  have hcomplete : ∀ m ∈ [long, short], Complete shuffled m := by decide +kernel
  obtain ⟨hcount, hsubset, -⟩ := reassembles_in_any_order {} (by decide) rfl [long, short]
    valid_long_short keep (fun _ _ => rfl) () shuffled (orderly_of_take (by decide +kernel))
  refine ⟨fun m hm => ?_, hsubset⟩
  rw [hcount m hm, if_pos (hcomplete m hm)]

/-- A configuration that does not fragment passes the check, and nothing is reassembled. -/
theorem disabled_reassembles_nothing :
    validateFragmentationConfig { enabled := false } = .ok () ∧
      Valid { enabled := false } [short] ∧
      ({ cfg := { enabled := false } } : FragmentReassembler).HasRoom short ∧
      Complete [⟨10, short, 0⟩] short ∧
      (arriveAll (recording keep) [⟨10, short, 0⟩] { cfg := { enabled := false } } ((), [])).2.2 =
        [] := by
  refine ⟨by decide, ⟨by decide, by decide, by decide, by simp [short]⟩, by decide, ?_, ?_⟩
  · decide +kernel
  · decide +kernel

end FragmentReassembler

end SecureCnet
