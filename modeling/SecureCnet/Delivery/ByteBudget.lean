import SecureCnet.Delivery.ReliableRuns

/-!
# The byte budget of a reliable session

`enqueue` adds the size of the new message to a 32-bit counter before it compares the sum with
the budget. The validator accepts any budget, so with a budget near the top of the range, and
room for enough messages to fill it, the sum wraps and the message is let in.
-/

namespace SecureCnet

namespace ReliableSession

variable {cfg : ReliabilityConfig} {n : ℕ} {rs : ReliableSession}
  {c : List (UInt64 × UInt8 × Bytes)}

def maxEncodedBytes : ℕ := 8 + NetConfig.maxReliableMessageBytes

/-- What the encodings in a queue add up to. -/
def size (contents : List (UInt64 × UInt8 × Bytes)) : ℕ := (contents.map fun c => c.2.2.length).sum

theorem bytes_eq_size (rs : ReliableSession) : bytes rs.pending = size rs.contents := by
  simp [bytes, size, contents, PendingReliableMessage.content, Function.comp_def]

/-- Every encoding has a legal length, and all of them fit into the budget. -/
structure Budgeted (cfg : ReliabilityConfig) (contents : List (UInt64 × UInt8 × Bytes)) : Prop where
  each : ∀ c ∈ contents, c.2.2.length ≤ maxEncodedBytes
  total : size contents ≤ cfg.maxPendingBytes.toNat

theorem budgeted_nil : Budgeted cfg [] := ⟨by simp, Nat.zero_le _⟩

theorem Budgeted.sublist {c' : List (UInt64 × UInt8 × Bytes)} (h : Budgeted cfg c)
    (hsub : c'.Sublist c) : Budgeted cfg c' where
  each x hx := h.each x (hsub.subset hx)
  total := (hsub.map _).sum_le_sum (fun _ _ => Nat.zero_le _) |>.trans h.total

theorem Budgeted.size_le (h : Budgeted cfg c) : size c ≤ c.length * maxEncodedBytes := by
  have hsum := List.sum_le_card_nsmul (c.map fun x => x.2.2.length) maxEncodedBytes
    (List.forall_mem_map.mpr h.each)
  simpa [size] using hsum

/-- No budget and no queue of this size let a 32-bit sum wrap. -/
def NeverWraps (cfg : ReliabilityConfig) : Prop :=
  cfg.maxPendingBytes.toNat + (8 + 0xFFFF) < 2 ^ 32 ∨
    (cfg.maxPendingMessages.toNat - 1) * maxEncodedBytes + (8 + 0xFFFF) < 2 ^ 32

instance : Decidable (NeverWraps cfg) := inferInstanceAs (Decidable (_ ∨ _))

theorem Budgeted.add_lt (h : Budgeted cfg c) (hcfg : NeverWraps cfg)
    (hroom : c.length < cfg.maxPendingMessages.toNat) {len : ℕ} (hlen : len < 2 ^ 16) :
    size c + (8 + len) < 2 ^ 32 := by
  rcases hcfg with hbytes | hmessages
  · have htotal := h.total
    omega
  · have hsize := h.size_le
    have hmul : c.length * maxEncodedBytes ≤ (cfg.maxPendingMessages.toNat - 1) * maxEncodedBytes :=
      Nat.mul_le_mul_right _ (by omega)
    omega

theorem Counted.toNat_pendingBytes (h : rs.Counted) (hlt : bytes rs.pending < 2 ^ 32) :
    rs.pendingBytes.toNat = bytes rs.pending := by
  rw [h.pendingBytes, UInt32.toNat_ofNat', Nat.mod_eq_of_lt hlt]

theorem Budgeted.enqueue (h : Budgeted cfg rs.contents) (hcfg : NeverWraps cfg) (hrun : Runs cfg n rs)
    (t : UInt8) {d : Bytes} (hd : d.length < 2 ^ 16) (prio : SendPriority) (life now : UInt64) :
    Budgeted cfg (rs.enqueue t d prio life now).2.contents := by
  rcases rs.enqueue_eq t d prio life now with ⟨msg, he, -⟩ | ⟨msg, he, -⟩ | ⟨he, -, hlen, hroom, hfit⟩
  · exact he ▸ h
  · exact he ▸ h
  · rw [hrun.cfg_eq] at hroom hfit
    have hsum := h.add_lt hcfg (by simpa [contents] using hroom) hd
    have hbytes := hrun.counted.toNat_pendingBytes (by rw [bytes_eq_size]; omega)
    have hperm : (rs.enqueue t d prio life now).2.contents.Perm
        ((rs.queued t d prio life now).content :: rs.contents) := by
      rw [he]
      exact (insertPending_perm _ _).map _
    have hnew : (rs.queued t d prio life now).content.2.2.length = 8 + d.length := by
      simp [queued, PendingReliableMessage.content]
    refine ⟨fun c hc => ?_, ?_⟩
    · rcases List.mem_cons.mp (hperm.subset hc) with rfl | hc
      · rw [hnew]
        exact Nat.add_le_add_left hlen 8
      · exact h.each c hc
    · -- The 32-bit sum is the true one, and it was compared with the budget.
      rw [UInt32.le_iff_toNat_le, UInt32.toNat_add, hbytes, UInt32.toNat_ofNat', bytes_eq_size,
        Nat.mod_eq_of_lt (by omega : 8 + d.length < 2 ^ 32), Nat.mod_eq_of_lt hsum] at hfit
      have hsize : size (rs.enqueue t d prio life now).2.contents = 8 + d.length + size rs.contents := by
        rw [size, (hperm.map _).sum_eq, List.map_cons, List.sum_cons, hnew, size]
      omega

theorem Runs.budgeted (hcfg : NeverWraps cfg) (h : Runs cfg n rs) : Budgeted cfg rs.contents := by
  induction h with
  | configure => exact budgeted_nil
  | enqueue h t d hlen prio life now ih => exact ih.enqueue hcfg h t hlen prio life now
  | acknowledge h id now ih => exact ih.sublist (contents_acknowledge id now _)
  | noteSent h id now ih => exact (contents_noteSent id now _).symm ▸ ih
  | @resendDue _ rs h _ now fn s ih =>
    have hsame := (resendDue_spec now fn (fun _ => True) rs (fun _ _ _ _ => trivial) s trivial).1
    rw [hsame]
    exact ih
  | expireOld h now ih => exact ih.sublist (contents_expireOld now _)
  | acceptIncoming h id ih => exact ih
  | clear h ih => exact budgeted_nil

/-- Any number of bytes that `k` messages can have is reached with `k` calls. -/
theorem runs_of_size (cfg : ReliabilityConfig) (k total : ℕ) (hmin : k * 8 ≤ total)
    (hmax : total ≤ k * maxEncodedBytes) (hbytes : total ≤ cfg.maxPendingBytes.toNat)
    (hk : k ≤ cfg.maxPendingMessages.toNat) :
    ∃ rs, Runs cfg k rs ∧ rs.pending.length = k ∧ bytes rs.pending = total ∧
      rs.nextMessageId.toNat = k + 1 := by
  have hlimit := cfg.maxPendingBytes.toNat_lt
  have hcount := cfg.maxPendingMessages.toNat_lt
  rw [show maxEncodedBytes = 1252 from rfl] at hmax
  induction k generalizing total with
  | zero =>
    obtain rfl : total = 0 := Nat.le_zero.mp (hmax.trans_eq (Nat.zero_mul _))
    exact ⟨_, .configure, rfl, rfl, rfl⟩
  | succ k ih =>
    -- The last message takes as much as it can and leaves eight bytes to each of the others.
    obtain ⟨len, hlen, hmin', hmax'⟩ : ∃ len ≤ 1244,
        k * 8 + (8 + len) ≤ total ∧ total ≤ k * 1252 + (8 + len) :=
      ⟨min 1244 (total - (k + 1) * 8), by omega, by omega, by omega⟩
    obtain ⟨rs, hrun, hpending, hsize, hnext⟩ :=
      ih (total - (8 + len)) (by omega) (by omega) (by omega) (by omega)
    obtain ⟨d, rfl⟩ : ∃ d : Bytes, d.length = len := ⟨List.replicate len 0, List.length_replicate⟩
    have hsum : (rs.pendingBytes + UInt32.ofNat (8 + d.length)).toNat = total := by
      rw [UInt32.toNat_add, hrun.counted.toNat_pendingBytes (by omega), hsize, UInt32.toNat_ofNat',
        Nat.mod_eq_of_lt (by omega : 8 + d.length < 2 ^ 32), Nat.mod_eq_of_lt (by omega)]
      omega
    have hok := enqueue_of_room (t := 0) hlen (by rw [hrun.cfg_eq]; omega)
      (by rw [hrun.cfg_eq, UInt32.le_iff_toNat_le]; omega)
      (fun hzero => by rw [hzero] at hnext; cases hnext) .normal 0 0
    have hperm := insertPending_perm (rs.queued 0 d .normal 0 0) rs.pending
    refine ⟨_, hrun.enqueue 0 d (by omega) .normal 0 0, ?_⟩
    rw [hok]
    refine ⟨by rw [hperm.length_eq, List.length_cons, hpending], ?_, ?_⟩
    · rw [bytes_perm hperm, bytes_cons, hsize]
      simp [queued]
      omega
    · rw [UInt64.toNat_add, hnext]
      exact Nat.mod_eq_of_lt (show k + 1 + 1 < 2 ^ 64 by omega)

/-- The budget holds and no sum wraps exactly when the budget leaves room for one more call, or
the queue is too short to fill it. -/
theorem byte_budget_iff (cfg : ReliabilityConfig) :
    (∀ n rs, Runs cfg n rs → bytes rs.pending ≤ cfg.maxPendingBytes.toNat ∧
      (rs.pending.length < cfg.maxPendingMessages.toNat →
        ∀ len < 2 ^ 16, rs.pendingBytes.toNat + (8 + len) < 2 ^ 32)) ↔ NeverWraps cfg := by
  constructor
  · intro h
    by_contra hcfg
    obtain ⟨hbytes, hmessages⟩ := not_or.mp hcfg
    -- Enough messages to leave no room for the largest call.
    rw [show maxEncodedBytes = 1252 from rfl] at hmessages
    obtain ⟨rs, hrun, hpending, hsize, -⟩ := runs_of_size cfg 3430433
      (2 ^ 32 - 65543) (by decide) (by decide) (by omega) (by omega)
    have hlt := (h _ rs hrun).2 (by omega) 0xFFFF (by decide)
    rw [hrun.counted.toNat_pendingBytes (by omega)] at hlt
    omega
  · intro hcfg n rs hrun
    have hbudget := hrun.budgeted hcfg
    have hle : bytes rs.pending ≤ cfg.maxPendingBytes.toNat := by
      rw [bytes_eq_size]
      exact hbudget.total
    refine ⟨hle, fun hroom len hlen => ?_⟩
    rw [hrun.counted.toNat_pendingBytes (hle.trans_lt cfg.maxPendingBytes.toNat_lt), bytes_eq_size]
    exact hbudget.add_lt hcfg (by simpa [contents] using hroom) hlen

/-- With the largest limits 3430486 messages fill the budget, and one more is let in. -/
theorem byte_budget_wraps :
    let cfg : ReliabilityConfig := { maxPendingBytes := 0xFFFFFFFF, maxPendingMessages := 0xFFFFFFFF }
    validateReliabilityConfig cfg = .ok () ∧ ∃ rs, Runs cfg 3430486 rs ∧
      bytes rs.pending = 2 ^ 32 - 1 ∧
      bytes (rs.enqueue 0 [] .normal 0 0).2.pending = 2 ^ 32 + 7 ∧
      rs.pendingBytes + UInt32.ofNat 8 = 7 := by
  intro cfg
  refine ⟨by decide, ?_⟩
  obtain ⟨rs, hrun, hpending, hsize, hnext⟩ := runs_of_size cfg 3430486
    (2 ^ 32 - 1) (by decide) (by decide) (by decide) (by decide)
  have hsum : rs.pendingBytes + UInt32.ofNat 8 = 7 := by
    rw [hrun.counted.pendingBytes, hsize]
    rfl
  have hok : rs.enqueue 0 [] .normal 0 0 = _ := enqueue_of_room (Nat.zero_le _)
    (by rw [hrun.cfg_eq, hpending]; decide) (by rw [List.length_nil, hsum, hrun.cfg_eq]; decide)
    (fun hzero => by rw [hzero] at hnext; cases hnext) .normal 0 0
  have hperm := insertPending_perm (rs.queued 0 [] .normal 0 0) rs.pending
  refine ⟨rs, hrun, hsize, ?_, hsum⟩
  rw [hok]
  rw [bytes_perm hperm, bytes_cons, hsize]
  simp [queued]

end ReliableSession

end SecureCnet
