import SecureCnet.Delivery.Accounting
import SecureCnet.Session.Receive

/-!
# Fragments that are refused

The reassembler checks a piece before it changes anything, with one exception: the piece
that completes a message is stored first and the message handed over afterwards. If the
receiver of the message fails, the call fails as well and the complete entry stays.
-/

namespace SecureCnet

open Chunks

namespace FragmentReassembler

variable {r r' : FragmentReassembler} {f : FragmentView} {e : ReassemblyEntry}
  {m : FragmentedMessage} {σ : Type} {onComplete : FragmentedMessage → σ → Result Unit × σ}
  {now : UInt64}

/-- The states of a reassembler: pieces that were read, with callbacks that may fail, and expiry. -/
inductive Reached : FragmentReassembler → Prop
  | configure (cfg : FragmentationConfig) (r : FragmentReassembler) : Reached (r.configure cfg)
  | accept {r : FragmentReassembler} (h : Reached r) {b : Bytes} {f : FragmentView}
      (hf : readFragmentPayload b = .ok f) {σ : Type} (now : UInt64)
      (onComplete : FragmentedMessage → σ → Result Unit × σ) (s : σ) :
      Reached (r.accept now f onComplete s).2.1
  | expireOld {r : FragmentReassembler} (h : Reached r) (now : UInt64) : Reached (r.expireOld now)
  | clear {r : FragmentReassembler} (h : Reached r) : Reached r.clear

theorem Reached.accounted (h : r.Reached) : r.Accounted := by
  induction h with
  | configure cfg r => exact accounted_configure cfg r
  | accept _ _ now onComplete s ih => exact (ih.accept now _ onComplete s).1
  | expireOld _ now ih => exact ih.expireOld now
  | @clear r _ _ => exact accounted_configure r.cfg r

/-- The limits let a piece in. -/
def AdmitsPiece (f : FragmentView) (r : FragmentReassembler) : Prop :=
  r.cfg.enabled = true ∧ f.fragmentCount ≤ r.cfg.maxFragmentsPerMessage ∧
    f.originalLength.toNat ≤ r.cfg.maxReassembledMessageBytes.toNat ∧
    (r.contains f.messageId = true ∨
      r.entries.entries.length < r.cfg.maxConcurrentReassembliesPerPeer.toNat ∧
        r.memoryBytes + f.originalLength.toUInt64 ≤ r.cfg.maxTotalReassemblyMemoryPerPeer)

instance (f : FragmentView) (r : FragmentReassembler) : Decidable (r.AdmitsPiece f) :=
  inferInstanceAs (Decidable (_ ∧ _))

/-- The message a piece completes: it is the only piece of its message, or the only one that is
missing. -/
def completes (f : FragmentView) (r : FragmentReassembler) : Option FragmentedMessage :=
  match r.entries.lookup f.messageId with
  | none =>
    if f.fragmentCount = 1 then
      some ⟨f.messageId, f.deliverySequence, f.channel, f.type, f.data⟩
    else none
  | some e =>
    if e.sameMetadata f = true ∧ e.received.getD f.fragmentIndex.toNat false = false ∧
        e.receivedCount + 1 = e.fragmentCount then
      some ⟨e.messageId, e.deliverySequence, e.channel, e.type,
        paste (f.fragmentIndex.toNat * NetConfig.maxFragmentDataBytes) f.data e.payload⟩
    else none

/-- The checks on a well-formed piece are those of the limits. -/
theorem checkFragment_eq_ok (hf : f.WellFormed) (cfg : FragmentationConfig) :
    checkFragment cfg f = .ok () ↔ cfg.enabled = true ∧
      f.fragmentCount ≤ cfg.maxFragmentsPerMessage ∧
      f.originalLength.toNat ≤ cfg.maxReassembledMessageBytes.toNat := by
  have hindex : ¬(f.fragmentCount = 0 ∨ f.fragmentCount ≤ f.fragmentIndex) := by
    rintro (h0 | hle)
    · have hlt := UInt16.lt_iff_toNat_lt.mp hf.index
      rw [h0] at hlt
      exact absurd hlt (Nat.not_lt_zero _)
    · exact absurd hf.index (UInt16.not_lt.mpr hle)
  have happ : ¬(!f.channel.isApplication) = true := by
    simp [Channel.isApplication, hf.application]
  unfold checkFragment
  simp only [Result.guard_eq_ok, hindex, happ, hf.size, not_or, UInt16.not_lt, not_lt, ne_eq,
    not_true_eq_false, not_false_eq_true, and_true, Bool.not_eq_true', Bool.not_eq_false,
    Bool.false_eq_true]

theorem openEntry_of_lookup (h : r.entries.lookup f.messageId = some e) (now : UInt64) :
    r.openEntry now f = .ok (e, r) := by
  unfold openEntry
  rw [h]

theorem openEntry_of_admits (h : r.AdmitsPiece f) (now : UInt64) :
    ∃ e r', r.openEntry now f = .ok (e, r') := by
  obtain ⟨-, -, -, hroom⟩ := h
  cases hl : r.entries.lookup f.messageId with
  | some e => exact ⟨e, r, openEntry_of_lookup hl now⟩
  | none =>
    have hno : ¬r.contains f.messageId = true := by simp [contains, hl]
    obtain ⟨hcount, hmemory⟩ := hroom.resolve_left hno
    unfold openEntry
    rw [hl]
    dsimp only
    rw [if_neg (not_le.mpr hcount), if_neg (UInt64.not_lt.mpr hmemory)]
    exact ⟨_, _, rfl⟩

/-- Outside the limits the call fails and changes nothing. -/
theorem accept_of_not_admitsPiece (hf : f.WellFormed) (h : ¬r.AdmitsPiece f) (now : UInt64) (s : σ) :
    ∃ err, r.accept now f onComplete s = (.error err, r, s) := by
  unfold accept
  cases hcheck : checkFragment r.cfg f with
  | error err => exact ⟨err, rfl⟩
  | ok u =>
    dsimp only
    obtain ⟨henabled, hcount, hlen⟩ := (checkFragment_eq_ok hf r.cfg).mp hcheck
    cases hopen : r.openEntry now f with
    | error err => exact ⟨err, rfl⟩
    | ok er =>
      refine absurd ⟨henabled, hcount, hlen, ?_⟩ h
      unfold openEntry at hopen
      cases hl : r.entries.lookup f.messageId with
      | some e => exact Or.inl (by simp [contains, hl])
      | none =>
        rw [hl] at hopen
        dsimp only at hopen
        split_ifs at hopen with hfull hmemory
        · cases hopen
        · cases hopen
        · exact Or.inr ⟨not_le.mp hfull, UInt64.not_lt.mp hmemory⟩

theorem piece_fits (he : e.WellFormed) (hf : f.WellFormed) (hmeta : e.sameMetadata f = true) :
    f.fragmentIndex.toNat * NetConfig.maxFragmentDataBytes + f.data.length ≤ e.payload.length := by
  have hlen : e.originalLength = f.originalLength := by
    simp only [ReassemblyEntry.sameMetadata, Bool.and_eq_true, decide_eq_true_eq] at hmeta
    exact hmeta.2
  have hindex := hf.index_toNat
  have hcount := fragmentCountForLength_toNat f.originalLength
  rw [he.payload, hlen, hf.size, fragmentSizeForIndex_toNat hindex,
    NetConfig.maxFragmentDataBytes_eq]
  omega

/-- What a call does once it has an entry for its piece. -/
theorem accept_of_open (he : e.WellFormed) (hf : f.WellFormed)
    (hcheck : checkFragment r.cfg f = .ok ()) (hopen : r.openEntry now f = .ok (e, r')) (s : σ) :
    r.accept now f onComplete s =
      if e.sameMetadata f = false then (fail .badPacket "fragment set metadata mismatch", r', s)
      else if e.received.getD f.fragmentIndex.toNat false = true then
        (.ok (), r'.put f.messageId { e with lastUpdateMs := now }, s)
      else if e.receivedCount + 1 = e.fragmentCount then
        match onComplete (e.store now f).message s with
        | (.error err, s) => (.error err, r'.put f.messageId (e.store now f), s)
        | (.ok (), s) => (.ok (), (r'.put f.messageId (e.store now f)).drop f.messageId, s)
      else (.ok (), r'.put f.messageId (e.store now f), s) := by
  unfold accept
  rw [hcheck, hopen]
  cases hmeta : e.sameMetadata f with
  | false => simp only [hmeta, Bool.not_false, if_true]
  | true =>
    simp only [hmeta, not_lt.mpr (piece_fits he hf hmeta), Bool.not_true, Bool.false_eq_true,
      if_false, Bool.true_eq_false]
    rfl

/-- The only piece of a message is the message. -/
theorem fresh_store_message (hf : f.WellFormed) (hone : f.fragmentCount = 1) (now : UInt64) :
    ((ReassemblyEntry.fresh now f).store now f).message =
      ⟨f.messageId, f.deliverySequence, f.channel, f.type, f.data⟩ := by
  have hindex : f.fragmentIndex.toNat = 0 := by
    have hlt := UInt16.lt_iff_toNat_lt.mp hf.index
    rw [hone] at hlt
    exact Nat.lt_one_iff.mp hlt
  have hlen : f.data.length = f.originalLength.toNat := by
    have hcount := fragmentCountForLength_toNat f.originalLength
    have hsize := fragmentSizeForIndex_toNat hf.index_toNat
    rw [← hf.count, hone] at hcount
    rw [hf.size, hsize, hindex]
    change 1 = _ at hcount
    omega
  have hpaste : paste (f.fragmentIndex.toNat * NetConfig.maxFragmentDataBytes) f.data
      (List.replicate f.originalLength.toNat 0) = f.data := by
    simp [paste, hindex, hlen]
  simp only [ReassemblyEntry.message, ReassemblyEntry.store, ReassemblyEntry.fresh, hpaste]

/-- The message a piece completes can be read off the entry it goes to. -/
theorem completes_eq (hf : f.WellFormed) (hopen : r.openEntry now f = .ok (e, r')) :
    r.completes f =
      if e.sameMetadata f = true ∧ e.received.getD f.fragmentIndex.toNat false = false ∧
        e.receivedCount + 1 = e.fragmentCount then some (e.store now f).message else none := by
  unfold completes
  unfold openEntry at hopen
  cases hl : r.entries.lookup f.messageId with
  | some e₀ =>
    rw [hl] at hopen
    cases hopen
    rfl
  | none =>
    rw [hl] at hopen
    dsimp only at hopen ⊢
    split_ifs at hopen
    · cases hopen
    · cases hopen
    · cases hopen
      have hmeta : (ReassemblyEntry.fresh now f).sameMetadata f = true := by
        simp [ReassemblyEntry.sameMetadata, ReassemblyEntry.fresh]
      have hclear : (ReassemblyEntry.fresh now f).received.getD f.fragmentIndex.toNat false =
          false := by
        rw [ReassemblyEntry.fresh, List.getD_eq_getElem?_getD, List.getElem?_replicate]
        split_ifs <;> rfl
      have hlast : (ReassemblyEntry.fresh now f).receivedCount + 1 =
          (ReassemblyEntry.fresh now f).fragmentCount ↔ f.fragmentCount = 1 := eq_comm
      simp only [hmeta, hclear, hlast, true_and]
      split_ifs with hone
      · rw [fresh_store_message hf hone]
      · rfl

theorem openEntry_of_mismatch (hopen : r.openEntry now f = .ok (e, r'))
    (hmeta : e.sameMetadata f = false) : r' = r := by
  unfold openEntry at hopen
  cases hl : r.entries.lookup f.messageId with
  | some e₀ =>
    rw [hl] at hopen
    cases hopen
    rfl
  | none =>
    rw [hl] at hopen
    dsimp only at hopen
    split_ifs at hopen
    · cases hopen
    · cases hopen
    · cases hopen
      simp [ReassemblyEntry.sameMetadata, ReassemblyEntry.fresh] at hmeta

/-- A stored piece shows. -/
theorem put_store_ne (he : e.WellFormed) (hcheck : checkFragment r.cfg f = .ok ())
    (hopen : r.openEntry now f = .ok (e, r')) (hmeta : e.sameMetadata f = true)
    (hclear : e.received.getD f.fragmentIndex.toNat false ≠ true) :
    r'.put f.messageId (e.store now f) ≠ r := by
  intro heq
  have hlookup : r.entries.lookup f.messageId = some (e.store now f) := by
    rw [← heq, lookup_put, if_pos rfl]
  have hsame : e.store now f = e := by
    have h := hopen
    rw [openEntry_of_lookup hlookup] at h
    exact (Prod.mk.inj (Except.ok.inj h)).1
  have hflag := flag_eq_false he hcheck hmeta hclear
  obtain ⟨hlt, -⟩ := List.getElem?_eq_some_iff.mp hflag
  rw [← hsame] at hflag
  change (e.received.set f.fragmentIndex.toNat true)[f.fragmentIndex.toNat]? = some false at hflag
  rw [List.getElem?_set_self hlt] at hflag
  cases hflag

/-- A call that fails leaves everything as it was exactly when the receiver of the message that
the piece completes, if there is one, does not fail. -/
theorem refused_unchanged_iff (hr : r.Reached) {b : Bytes} (hf : readFragmentPayload b = .ok f)
    (now : UInt64) (onComplete : FragmentedMessage → σ → Result Unit × σ) (s : σ) :
    ((∃ err, (r.accept now f onComplete s).1 = .error err) →
        (r.accept now f onComplete s).2.1 = r) ↔
      (r.AdmitsPiece f → ∀ m, r.completes f = some m → (onComplete m s).1 = .ok ()) := by
  have hwf := (readFragmentPayload_eq_ok.mp hf).2
  by_cases hadm : r.AdmitsPiece f
  swap
  · have hrefused : ∃ err, r.accept now f onComplete s = (.error err, r, s) :=
      accept_of_not_admitsPiece hwf hadm now s
    obtain ⟨err, hacc⟩ := hrefused
    rw [hacc]
    exact iff_of_true (fun _ => rfl) fun h => absurd h hadm
  have hcheck := (checkFragment_eq_ok hwf r.cfg).mpr ⟨hadm.1, hadm.2.1, hadm.2.2.1⟩
  obtain ⟨e, r', hopen⟩ := openEntry_of_admits hadm now
  obtain ⟨hacc', -, hlookup, -⟩ := hr.accounted.openEntry hopen
  have he := hacc'.entries _ _ hlookup
  rw [accept_of_open he hwf hcheck hopen s, completes_eq hwf hopen]
  cases hmeta : e.sameMetadata f with
  | false =>
    rw [if_pos rfl, if_neg (fun h => Bool.false_ne_true h.1)]
    exact iff_of_true (fun _ => openEntry_of_mismatch hopen hmeta) fun _ m hm => nomatch hm
  | true =>
    rw [if_neg Bool.true_eq_false_eq_False]
    by_cases hdup : e.received.getD f.fragmentIndex.toNat false = true
    · rw [if_pos hdup, if_neg (fun h => Bool.false_ne_true (h.2.1.symm.trans hdup))]
      exact iff_of_true (fun ⟨err, h⟩ => nomatch h) fun _ m hm => nomatch hm
    rw [if_neg hdup]
    by_cases hlast : e.receivedCount + 1 = e.fragmentCount
    swap
    · rw [if_neg hlast, if_neg (fun h => hlast h.2.2)]
      exact iff_of_true (fun ⟨err, h⟩ => nomatch h) fun _ m hm => nomatch hm
    -- The piece is stored and its message handed over: only here can a failure leave a trace.
    rw [if_pos hlast, if_pos ⟨rfl, Bool.eq_false_iff.mpr hdup, hlast⟩]
    rcases hres : onComplete (e.store now f).message s with ⟨_ | _, s'⟩
    case ok u =>
      refine iff_of_true (fun ⟨err, h⟩ => nomatch h) fun _ m hm => ?_
      rw [← Option.some.inj hm, hres]
    case error err =>
      refine iff_of_false (fun h => ?_) fun h => ?_
      · exact put_store_ne he hcheck hopen hmeta hdup (h ⟨err, rfl⟩)
      · have hok := h hadm _ rfl
        rw [hres] at hok
        cases hok

/-- The whole of an ordered message of two bytes. -/
def lonePiece (deliverySequence : UInt64) : FragmentView :=
  ⟨1, deliverySequence, .reliableOrdered, 0, 0, 1, 2, [7, 7]⟩

/-- A piece over the limit on the length of messages leaves no trace. -/
theorem overlong_piece_unchanged :
    let r := configure { maxReassembledMessageBytes := 1 } {}
    let result := r.accept 5 (lonePiece 1) Session.deliverReassembledMessage {}
    (∃ err, result.1 = .error err) ∧ result.2.1 = r :=
  ⟨⟨_, rfl⟩, (refused_unchanged_iff (.configure _ _) (b := (lonePiece 1).encode) (by decide) 5
    Session.deliverReassembledMessage {}).mpr (fun h => absurd h (by decide)) ⟨_, rfl⟩⟩

/-- The piece completes an ordered message with the sequence number 0. The ordered window
refuses the message, the call fails, and the entry and its memory stay. -/
theorem refused_message_stays :
    let r := configure {} {}
    let result := r.accept 5 (lonePiece 0) Session.deliverReassembledMessage {}
    r.Reached ∧ readFragmentPayload (lonePiece 0).encode = .ok (lonePiece 0) ∧
      (∃ err, result.1 = .error err) ∧ result.2.1.contains 1 = true ∧
      result.2.1.memoryBytes = 2 ∧ r.contains 1 = false ∧ r.memoryBytes = 0 ∧
      result.2.1 ≠ r := by
  refine ⟨.configure _ _, by decide, ⟨_, rfl⟩, by decide, by decide, by decide, by decide, ?_⟩
  intro h
  exact absurd (congrArg memoryBytes h) (by decide)

end FragmentReassembler

end SecureCnet
