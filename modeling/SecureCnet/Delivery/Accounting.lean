import SecureCnet.Delivery.Reassembler
import SecureCnet.Library.TableSum

/-!
# Memory of the reassembler

The reassembler counts the bytes its entries were opened for. The count is exact, it
stays within the limits of the configuration, and every entry has the buffers it was
opened with, whatever pieces arrive, complete, fail to be delivered or expire.
-/

namespace SecureCnet

open Chunks TableSum

/-- The buffers have the sizes announced by the first piece, and the counter is that of the flags. -/
structure ReassemblyEntry.WellFormed (e : ReassemblyEntry) : Prop where
  payload : e.payload.length = e.originalLength.toNat
  received : e.received.length = e.fragmentCount.toNat
  receivedCount : e.received.count true = e.receivedCount.toNat

namespace ReassemblyEntry

variable {e : ReassemblyEntry} {f : FragmentView}

theorem wellFormed_fresh (now : UInt64) (f : FragmentView) : (fresh now f).WellFormed where
  payload := by simp [fresh]
  received := by simp [fresh]
  receivedCount := by simp [fresh, List.count_replicate]

/-- Storing a piece sets one more flag. -/
theorem WellFormed.store (h : e.WellFormed) (hflag : e.received[f.fragmentIndex.toNat]? = some false)
    (hfits : f.fragmentIndex.toNat * NetConfig.maxFragmentDataBytes + f.data.length ≤
      e.payload.length) (now : UInt64) : (e.store now f).WellFormed where
  payload := (length_paste hfits).trans h.payload
  received := (List.length_set).trans h.received
  receivedCount := by
    have hset := count_true_set hflag
    have hle : (e.received.set f.fragmentIndex.toNat true).count true ≤
        (e.received.set f.fragmentIndex.toNat true).length := List.count_le_length
    rw [List.length_set, h.received, hset] at hle
    have hmax := e.fragmentCount.toNat_lt
    change (e.received.set f.fragmentIndex.toNat true).count true = (e.receivedCount + 1).toNat
    rw [hset, UInt16.toNat_add, h.receivedCount]
    refine (Nat.mod_eq_of_lt ?_).symm
    simp only [h.receivedCount] at hle
    simp
    omega

end ReassemblyEntry

namespace FragmentReassembler

variable {r : FragmentReassembler} {id : UInt64} {e e' : ReassemblyEntry}

def bytes (r : FragmentReassembler) : ℕ := total (fun e => e.originalLength.toNat) r.entries

structure Accounted (r : FragmentReassembler) : Prop where
  memory : r.memoryBytes.toNat = r.bytes
  entries : ∀ id e, r.entries.lookup id = some e → e.WellFormed
  concurrent : r.entries.entries.length ≤ r.cfg.maxConcurrentReassembliesPerPeer.toNat
  quota : r.memoryBytes ≤ r.cfg.maxTotalReassemblyMemoryPerPeer

theorem accounted_configure (cfg : FragmentationConfig) (r : FragmentReassembler) :
    (r.configure cfg).Accounted where
  memory := rfl
  entries id e h := by
    rw [show (r.configure cfg).entries = ∅ from rfl, AList.lookup_empty] at h
    cases h
  concurrent := Nat.zero_le _
  quota := UInt64.le_iff_toNat_le.mpr (Nat.zero_le _)

theorem Accounted.bytes_add_lt (h : r.Accounted) (len : UInt16) :
    r.bytes + len.toNat < 2 ^ 49 := by
  have hbytes : r.bytes ≤ r.entries.entries.length * 65535 :=
    total_le_length_mul fun e => Nat.le_of_lt_succ e.originalLength.toNat_lt
  have hcount := h.concurrent
  have hmax := r.cfg.maxConcurrentReassembliesPerPeer.toNat_lt
  have hlen := len.toNat_lt
  omega

theorem Accounted.put (h : r.Accounted) (hlookup : r.entries.lookup id = some e)
    (hlen : e'.originalLength = e.originalLength) (he' : e'.WellFormed) :
    (r.put id e').Accounted where
  memory := h.memory.trans (total_update hlookup (by rw [hlen])).symm
  entries id' e₁ h₁ := by
    rw [lookup_put] at h₁
    split_ifs at h₁
    · cases h₁
      exact he'
    · exact h.entries id' e₁ h₁
  concurrent := by
    rw [← total_one]
    exact (total_update hlookup rfl).trans_le (total_one r.entries ▸ h.concurrent)
  quota := h.quota

theorem Accounted.drop (h : r.Accounted) (id : UInt64) : (r.drop id).Accounted := by
  have hentries : ∀ id' e, (r.drop id).entries.lookup id' = some e → e.WellFormed := by
    intro id' e he
    rw [lookup_drop] at he
    split_ifs at he
    exact h.entries id' e he
  unfold FragmentReassembler.drop at hentries ⊢
  cases hl : r.entries.lookup id with
  | none =>
    rw [hl] at hentries
    exact h
  | some e =>
    rw [hl] at hentries
    have hbytes : r.bytes = total (fun e => e.originalLength.toNat) (r.entries.erase id) +
        e.originalLength.toNat := total_eq_erase_add hl
    have hone := total_eq_erase_add (w := fun _ => 1) hl
    rw [total_one, total_one] at hone
    have hle : e.originalLength.toUInt64 ≤ r.memoryBytes := by
      rw [UInt64.le_iff_toNat_le, h.memory, hbytes]
      exact Nat.le_add_left _ _
    have hsub : (r.memoryBytes - e.originalLength.toUInt64).toNat =
        r.memoryBytes.toNat - e.originalLength.toNat := UInt64.toNat_sub_of_le _ _ hle
    refine ⟨?_, hentries, ?_, ?_⟩
    · change (r.memoryBytes - e.originalLength.toUInt64).toNat = total _ (r.entries.erase id)
      rw [hsub, h.memory, hbytes]
      omega
    · have hcount := h.concurrent
      change (r.entries.erase id).entries.length ≤ r.cfg.maxConcurrentReassembliesPerPeer.toNat
      omega
    · refine UInt64.le_trans ?_ h.quota
      change r.memoryBytes - e.originalLength.toUInt64 ≤ r.memoryBytes
      rw [UInt64.le_iff_toNat_le, hsub]
      exact Nat.sub_le _ _

theorem bytes_drop_le (id : UInt64) (r : FragmentReassembler) : (r.drop id).bytes ≤ r.bytes := by
  refine total_le_of_lookup fun id' e he => Or.inr ⟨e, ?_, le_rfl⟩
  rw [lookup_drop] at he
  split_ifs at he
  exact he

/-- What a piece of a message costs: nothing if the message has an entry. -/
def charge (f : FragmentView) (r : FragmentReassembler) : ℕ :=
  if r.contains f.messageId then 0 else f.originalLength.toNat

/-- Opening an entry charges the length of its message. -/
theorem Accounted.openEntry (h : r.Accounted) {now : UInt64} {f : FragmentView}
    {r' : FragmentReassembler} (ho : r.openEntry now f = .ok (e, r')) :
    r'.Accounted ∧ r'.cfg = r.cfg ∧ r'.entries.lookup f.messageId = some e ∧
      r'.bytes = r.bytes + r.charge f := by
  unfold FragmentReassembler.openEntry at ho
  unfold charge contains
  cases hl : r.entries.lookup f.messageId with
  | some e₀ =>
    rw [hl] at ho
    cases ho
    exact ⟨h, rfl, hl, rfl⟩
  | none =>
    rw [hl] at ho
    dsimp only at ho
    split_ifs at ho with hcount hquota
    · cases ho
    · cases ho
    · cases ho
      have hbytes : total (fun e => e.originalLength.toNat)
          (r.entries.insert f.messageId (ReassemblyEntry.fresh now f)) =
          r.bytes + f.originalLength.toNat := by
        rw [total_insert, erase_of_lookup_none hl]
        rfl
      have hone : (r.entries.insert f.messageId (ReassemblyEntry.fresh now f)).entries.length =
          r.entries.entries.length + 1 := by
        rw [← total_one, total_insert, erase_of_lookup_none hl, total_one]
      have hadd : (r.memoryBytes + f.originalLength.toUInt64).toNat =
          r.bytes + f.originalLength.toNat := by
        have hlt := h.bytes_add_lt f.originalLength
        rw [UInt64.toNat_add, h.memory]
        refine Nat.mod_eq_of_lt ?_
        simp
        omega
      refine ⟨⟨hadd.trans hbytes.symm, fun id e he => ?_, ?_, UInt64.not_lt.mp hquota⟩, rfl,
        AList.lookup_insert _, hbytes⟩
      · by_cases hid : id = f.messageId
        · subst hid
          obtain rfl := Option.some.inj ((AList.lookup_insert _).symm.trans he)
          exact ReassemblyEntry.wellFormed_fresh now f
        · exact h.entries id e ((AList.lookup_insert_ne hid).symm.trans he)
      · rw [hone]
        exact Nat.lt_of_not_le hcount

/-- A flag of a piece that passed the checks is there, set or clear. -/
theorem flag_eq_false {cfg : FragmentationConfig} {f : FragmentView} (he : e.WellFormed)
    (hcheck : checkFragment cfg f = .ok ()) (hmeta : e.sameMetadata f = true)
    (hclear : e.received.getD f.fragmentIndex.toNat false ≠ true) :
    e.received[f.fragmentIndex.toNat]? = some false := by
  have hindex : f.fragmentIndex < f.fragmentCount := by
    by_contra hlt
    unfold checkFragment at hcheck
    rw [if_pos (Or.inr (UInt16.not_lt.mp hlt) : f.fragmentCount = 0 ∨ _)] at hcheck
    split_ifs at hcheck <;> cases hcheck
  have hcount : e.fragmentCount = f.fragmentCount := by
    simp only [ReassemblyEntry.sameMetadata, Bool.and_eq_true, decide_eq_true_eq] at hmeta
    exact hmeta.1.2
  have hlt : f.fragmentIndex.toNat < e.received.length := by
    rw [he.received, hcount]
    exact UInt16.lt_iff_toNat_lt.mp hindex
  rw [List.getD_eq_getElem?_getD, List.getElem?_eq_getElem hlt] at hclear
  rw [List.getElem?_eq_getElem hlt]
  simpa using hclear

/-- Whatever a piece does, the books stay right, and it charges at most a new message. -/
theorem Accounted.accept {σ : Type} (h : r.Accounted) (now : UInt64) (f : FragmentView)
    (onComplete : FragmentedMessage → σ → Result Unit × σ) (s : σ) :
    (r.accept now f onComplete s).2.1.Accounted ∧
      (r.accept now f onComplete s).2.1.cfg = r.cfg ∧
      (r.accept now f onComplete s).2.1.bytes ≤ r.bytes + r.charge f := by
  unfold FragmentReassembler.accept
  cases hcheck : checkFragment r.cfg f with
  | error err => exact ⟨h, rfl, Nat.le_add_right _ _⟩
  | ok u =>
    dsimp only
    cases hopen : r.openEntry now f with
    | error err => exact ⟨h, rfl, Nat.le_add_right _ _⟩
    | ok er =>
      obtain ⟨e, r'⟩ := er
      obtain ⟨hacc, hcfg, hlookup, hbytes⟩ := h.openEntry hopen
      have hput : ∀ e', e'.originalLength = e.originalLength →
          (r'.put f.messageId e').bytes ≤ r.bytes + r.charge f :=
        fun e' hlen => (total_update hlookup (by rw [hlen])).trans_le hbytes.le
      have he := hacc.entries _ _ hlookup
      dsimp only
      split_ifs with hmeta hdup hbuf hdone
      · exact ⟨hacc, hcfg, hbytes.le⟩
      · exact ⟨hacc.put hlookup rfl ⟨he.payload, he.received, he.receivedCount⟩, hcfg, hput _ rfl⟩
      · exact ⟨hacc, hcfg, hbytes.le⟩
      all_goals
        have hflag := flag_eq_false he hcheck (by simpa using hmeta) hdup
        have hstored : (r'.put f.messageId (e.store now f)).Accounted :=
          hacc.put hlookup rfl (he.store hflag (not_lt.mp hbuf) now)
      · cases onComplete (e.store now f).message s with
        | mk rc s' =>
          cases rc with
          | error err => exact ⟨hstored, hcfg, hput _ rfl⟩
          | ok u =>
            refine ⟨hstored.drop _, (drop_cfg _ _).trans hcfg, ?_⟩
            exact (bytes_drop_le _ _).trans (hput _ rfl)
      · exact ⟨hstored, hcfg, hput _ rfl⟩

theorem Accounted.expireOld (h : r.Accounted) (now : UInt64) : (r.expireOld now).Accounted := by
  unfold FragmentReassembler.expireOld
  generalize (r.entries.entries.filter fun e => stale now r.cfg e.2).map Sigma.fst = ids
  induction ids generalizing r with
  | nil => exact h
  | cons id ids ih => exact ih (h.drop id)

theorem bytes_expireOld_le (now : UInt64) (r : FragmentReassembler) :
    (r.expireOld now).bytes ≤ r.bytes :=
  total_le_of_lookup fun _ e he => Or.inr ⟨e, lookup_expireOld he, le_rfl⟩

end FragmentReassembler

end SecureCnet
