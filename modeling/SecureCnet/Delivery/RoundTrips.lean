import SecureCnet.Delivery.ReliableRuns
import SecureCnet.Delivery.Pacing

/-!
# Round-trip times

The estimator of a session averages its samples without overflow, and the timeouts of
the session and of every queued message stay within the configured limits.
-/

namespace SecureCnet

/-- A timeout within the limits. -/
def ReliabilityConfig.Allows (cfg : ReliabilityConfig) (t : UInt64) : Prop :=
  cfg.minRtoMs ≤ t ∧ t ≤ cfg.maxRtoMs

namespace ReliableSession

variable {rs : ReliableSession} {cfg : ReliabilityConfig} {sample : UInt64} {lo hi n : ℕ}
  {samples : List UInt64}

/-! ### The estimator -/

/-- The session after these samples. -/
def sampled (samples : List UInt64) (rs : ReliableSession) : ReliableSession :=
  samples.foldl (fun rs sample => rs.updateRtt sample) rs

/-- What the estimator knows after samples between two bounds. -/
structure Estimates (lo hi : ℕ) (rs : ReliableSession) : Prop where
  le_srtt : lo ≤ rs.srttMs.toNat
  srtt_le : rs.srttMs.toNat ≤ hi
  rttvar_le : rs.rttvarMs.toNat ≤ max 1 hi

/-- The operations of `update_rtt` fit in 64 bits. -/
def RttFits (sample : UInt64) (rs : ReliableSession) : Prop :=
  rs.srttMs.toNat * 7 + sample.toNat < 2 ^ 64 ∧
    rs.rttvarMs.toNat * 3 +
      (max rs.srttMs.toNat sample.toNat - min rs.srttMs.toNat sample.toNat) < 2 ^ 64 ∧
    (rs.updateRtt sample).srttMs.toNat + max 1 ((rs.updateRtt sample).rttvarMs.toNat * 4) < 2 ^ 64

/-- A new average is between the old one and the sample. -/
theorem estimates_updateRtt (h : rs.haveRtt = true → rs.Estimates lo hi) (hlo : lo ≤ sample.toNat)
    (hhi : sample.toNat ≤ hi) (hmax : hi < 2 ^ 60) : (rs.updateRtt sample).Estimates lo hi := by
  unfold updateRtt
  cases hrtt : rs.haveRtt with
  | false =>
    refine ⟨hlo, hhi, ?_⟩
    simp only [Bool.not_false, if_true, UInt64.toNat_max, UInt64.toNat_div]
    exact max_le_max le_rfl ((Nat.div_le_self _ _).trans hhi)
  | true =>
    obtain ⟨hle, hge, hvar⟩ := h hrtt
    have hvar' : rs.rttvarMs.toNat ≤ 2 ^ 60 := by omega
    have hdelta : (if sample < rs.srttMs then rs.srttMs - sample else sample - rs.srttMs).toNat ≤
        hi := by
      split_ifs with hlt
      · rw [UInt64.toNat_sub_of_le _ _ (UInt64.le_of_lt hlt)]
        omega
      · rw [UInt64.toNat_sub_of_le _ _ (UInt64.not_lt.mp hlt)]
        omega
    have hsrtt : ((rs.srttMs * 7 + sample) / 8).toNat =
        (rs.srttMs.toNat * 7 + sample.toNat) / 8 := by
      rw [UInt64.toNat_div, UInt64.toNat_add, UInt64.toNat_mul]
      change (rs.srttMs.toNat * 7 % 2 ^ 64 + sample.toNat) % 2 ^ 64 / 8 = _
      rw [Nat.mod_eq_of_lt (a := rs.srttMs.toNat * 7) (by omega), Nat.mod_eq_of_lt (by omega)]
    simp only [Bool.not_true, Bool.false_eq_true, if_false]
    generalize (if sample < rs.srttMs then rs.srttMs - sample else sample - rs.srttMs) = delta
      at hdelta
    refine ⟨?_, ?_, ?_⟩
    · dsimp only
      omega
    · dsimp only
      omega
    · dsimp only
      rw [UInt64.toNat_div, UInt64.toNat_add, UInt64.toNat_mul]
      change (rs.rttvarMs.toNat * 3 % 2 ^ 64 + delta.toNat) % 2 ^ 64 / 4 ≤ _
      rw [Nat.mod_eq_of_lt (a := rs.rttvarMs.toNat * 3) (by omega), Nat.mod_eq_of_lt (by omega)]
      omega

theorem Estimates.sampled (h : rs.Estimates lo hi) (hs : ∀ s ∈ samples, lo ≤ s.toNat ∧ s.toNat ≤ hi)
    (hmax : hi < 2 ^ 60) : (rs.sampled samples).Estimates lo hi := by
  induction samples generalizing rs with
  | nil => exact h
  | cons s samples ih =>
    obtain ⟨⟨hlo, hhi⟩, hs⟩ := List.forall_mem_cons.mp hs
    exact ih (estimates_updateRtt (fun _ => h) hlo hhi hmax) hs

theorem Estimates.fits (h : rs.Estimates 0 (2 ^ 60 - 1)) (hsample : sample.toNat < 2 ^ 60) :
    rs.RttFits sample := by
  have hnext := estimates_updateRtt (fun _ => h) (Nat.zero_le sample.toNat) (by omega) (by omega)
  have hsrtt := h.srtt_le
  have hvar := h.rttvar_le
  have hsrtt' := hnext.srtt_le
  have hvar' := hnext.rttvar_le
  refine ⟨?_, ?_, ?_⟩ <;> omega

/-! ### The timeouts -/

/-- The session and its messages have timeouts within the limits. -/
structure Timed (cfg : ReliabilityConfig) (rs : ReliableSession) : Prop where
  session : cfg.Allows rs.rtoMs
  messages : ∀ m ∈ rs.pending, cfg.Allows m.rtoMs

theorem allows_updateRtt (hcfg : rs.cfg = cfg) (h : cfg.minRtoMs ≤ cfg.maxRtoMs) (sample : UInt64) :
    cfg.Allows (rs.updateRtt sample).rtoMs := by
  unfold updateRtt
  subst hcfg
  exact ⟨le_clampU64 h, clampU64_le h⟩

theorem allows_sampled (hcfg : rs.cfg = cfg) (h : cfg.minRtoMs ≤ cfg.maxRtoMs)
    (hrto : cfg.Allows rs.rtoMs) : cfg.Allows (rs.sampled samples).rtoMs := by
  induction samples generalizing rs with
  | nil => exact hrto
  | cons s samples ih =>
    exact ih ((sameNumbers_updateRtt s rs).cfg.trans hcfg) (allows_updateRtt hcfg h s)

theorem allows_timedOut {m : PendingReliableMessage} (hcfg : rs.cfg = cfg)
    (h : cfg.minRtoMs ≤ cfg.maxRtoMs) (hm : cfg.Allows m.rtoMs) :
    cfg.Allows (timedOut m rs).1.rtoMs ∧ (timedOut m rs).2.rtoMs = rs.rtoMs := by
  unfold timedOut
  by_cases hfly : m.inflight = true
  · rw [if_pos hfly]
    refine ⟨?_, rfl⟩
    rw [UInt64.le_iff_toNat_le] at h
    unfold ReliabilityConfig.Allows
    rw [UInt64.le_iff_toNat_le, UInt64.le_iff_toNat_le, UInt64.toNat_min, UInt64.toNat_max, hcfg]
    exact ⟨le_min h (le_max_left _ _), min_le_left _ _⟩
  · rw [if_neg hfly]
    exact ⟨hm, rfl⟩

/-- A pass doubles timeouts within the limits. -/
theorem resendLoop_timed {σ : Type} (now : UInt64)
    (fn : PendingReliableMessage → σ → Result Unit × σ) {ms : List PendingReliableMessage}
    (hcfg : rs.cfg = cfg) (h : cfg.minRtoMs ≤ cfg.maxRtoMs) (hms : ∀ m ∈ ms, cfg.Allows m.rtoMs)
    (s : σ) : (∀ m ∈ (resendLoop now fn ms rs s).2.1, cfg.Allows m.rtoMs) ∧
      (resendLoop now fn ms rs s).2.2.1.rtoMs = rs.rtoMs := by
  induction ms generalizing rs s with
  | nil => exact ⟨hms, rfl⟩
  | cons m ms ih =>
    obtain ⟨hm, hms⟩ := List.forall_mem_cons.mp hms
    obtain ⟨hm', hrto⟩ := allows_timedOut hcfg h hm
    rw [resendLoop_cons]
    split_ifs
    · obtain ⟨hrest, hsame⟩ := ih hcfg hms s
      exact ⟨List.forall_mem_cons.mpr ⟨hm, hrest⟩, hsame⟩
    · exact ⟨List.forall_mem_cons.mpr ⟨hm', hms⟩, hrto⟩
    · split
      · exact ⟨List.forall_mem_cons.mpr ⟨hm', hms⟩, hrto⟩
      · rename_i s' _
        have hcfg' : (timedOut m rs).2.countSent.cfg = cfg := (timedOut_cfg m rs).trans hcfg
        obtain ⟨hrest, hsame⟩ := ih hcfg' hms s'
        exact ⟨List.forall_mem_cons.mpr ⟨hm', hrest⟩, hsame.trans hrto⟩

theorem Timed.resendDue {σ : Type} (h : rs.Timed cfg) (hcfg : rs.cfg = cfg)
    (hle : cfg.minRtoMs ≤ cfg.maxRtoMs) (now : UInt64)
    (fn : PendingReliableMessage → σ → Result Unit × σ) (s : σ) :
    (rs.resendDue now fn s).2.1.Timed cfg := by
  obtain ⟨hmessages, hrto⟩ := resendLoop_timed now fn hcfg hle h.messages s
  have hrto' : (rs.resendDue now fn s).2.1.rtoMs = rs.rtoMs := by
    rw [← hrto]
    unfold ReliableSession.resendDue
    cases resendLoop now fn rs.pending rs s with
    | mk rc rest => cases rc <;> rfl
  constructor
  · rw [hrto']
    exact h.session
  · rw [(resendDue_fields now fn rs s).1]
    exact hmessages

theorem foldl_forget_rtoMs (ms : List PendingReliableMessage) (rs : ReliableSession) :
    (ms.foldl (fun rs m => rs.forget m) rs).rtoMs = rs.rtoMs := by
  induction ms generalizing rs with
  | nil => rfl
  | cons m ms ih => exact ih (rs.forget m)

theorem Timed.acknowledge (h : rs.Timed cfg) (hcfg : rs.cfg = cfg)
    (hle : cfg.minRtoMs ≤ cfg.maxRtoMs) (id now : UInt64) :
    (rs.acknowledge id now).2.Timed cfg := by
  constructor
  · unfold ReliableSession.acknowledge
    split
    · exact h.session
    · dsimp only
      split_ifs
      · exact allows_updateRtt hcfg hle _
      · exact h.session
  · rw [acknowledge_pending]
    exact fun m hm => h.messages m (List.eraseP_sublist.subset hm)

theorem Timed.noteSent (h : rs.Timed cfg) (id now : UInt64) : (rs.noteSent id now).2.Timed cfg := by
  unfold ReliableSession.noteSent
  cases hfind : rs.pending.find? fun m => m.messageId = id with
  | none => exact h
  | some m =>
    obtain ⟨l, r, hq, -, -, hreplace⟩ := find?_split hfind
    have hmessages := h.messages
    dsimp only
    split_ifs
    · exact h
    all_goals
      refine ⟨h.session, ?_⟩
      rw [hq] at hmessages
      simp only [hreplace, List.forall_mem_append, List.forall_mem_cons] at hmessages ⊢
      exact hmessages

theorem Runs.timed (h : Runs cfg n rs) (hle : cfg.minRtoMs ≤ cfg.maxRtoMs)
    (hinitial : cfg.Allows cfg.initialRtoMs) : rs.Timed cfg := by
  induction h with
  | configure => exact ⟨hinitial, fun _ hm => by cases hm⟩
  | @enqueue _ rs h t d hlen prio life now ih =>
    rcases rs.enqueue_eq t d prio life now with ⟨msg, he, -⟩ | ⟨msg, he, -⟩ | ⟨he, -⟩
    · exact he ▸ ih
    · exact he ▸ ⟨ih.session, ih.messages⟩
    · rw [he]
      refine ⟨ih.session, fun m hm => ?_⟩
      rcases mem_insertPending.mp hm with rfl | hm
      · exact ih.session
      · exact ih.messages m hm
  | acknowledge h id now ih => exact ih.acknowledge h.cfg_eq hle id now
  | noteSent h id now ih => exact ih.noteSent id now
  | resendDue h now fn s ih => exact ih.resendDue h.cfg_eq hle now fn s
  | @expireOld _ rs h now ih =>
    refine ⟨?_, fun m hm => ih.messages m (List.mem_of_mem_filter hm)⟩
    have hrto : (rs.expireOld now).2.rtoMs = rs.rtoMs := foldl_forget_rtoMs ..
    rw [hrto]
    exact ih.session
  | acceptIncoming h id ih => exact ⟨ih.session, ih.messages⟩
  | clear h ih =>
    refine ⟨?_, fun _ hm => by cases hm⟩
    simp only [ReliableSession.clear, resetRtt, h.cfg_eq]
    exact hinitial

/-- With any samples below 2⁶⁰ the estimate is between the least and the greatest of them, the
variance is at most the greatest, and nothing overflows. The timeout of the session, and in every
state of a session those of its messages, are within the limits. -/
theorem rtt_estimator_bounds (hvalid : validateReliabilityConfig cfg = .ok ())
    (rs : ReliableSession) (hsamples : ∀ s ∈ samples, s.toNat < 2 ^ 60) :
    (∀ lo hi : UInt64, samples ≠ [] → (∀ s ∈ samples, lo ≤ s ∧ s ≤ hi) →
      lo ≤ ((configure cfg rs).sampled samples).srttMs ∧
        ((configure cfg rs).sampled samples).srttMs ≤ hi ∧
        ((configure cfg rs).sampled samples).rttvarMs ≤ max 1 hi) ∧
      cfg.Allows ((configure cfg rs).sampled samples).rtoMs ∧
      (∀ s : UInt64, s.toNat < 2 ^ 60 → ((configure cfg rs).sampled samples).RttFits s) ∧
      ∀ n rs', Runs cfg n rs' → ∀ m ∈ rs'.pending, cfg.Allows m.rtoMs := by
  have hinitial : cfg.Allows cfg.initialRtoMs := by
    simp only [validateReliabilityConfig, Result.bind_eq_ok, reject_eq_ok, exists_and_left,
      exists_const, Bool.or_eq_false_iff, decide_eq_false_iff_not, UInt64.not_lt] at hvalid
    exact hvalid.2.1
  have hle := UInt64.le_trans hinitial.1 hinitial.2
  have hzero : (configure cfg rs).Estimates 0 (2 ^ 60 - 1) := ⟨Nat.zero_le _, Nat.zero_le _, Nat.zero_le _⟩
  refine ⟨fun lo hi hne hbounds => ?_, allows_sampled rfl hle hinitial, fun s hs => ?_,
    fun n rs' hrun m hm => (hrun.timed hle hinitial).messages m hm⟩
  · have hbounds' : ∀ s ∈ samples, lo.toNat ≤ s.toNat ∧ s.toNat ≤ min hi.toNat (2 ^ 60 - 1) := by
      intro s hs
      obtain ⟨hlo, hhi⟩ := hbounds s hs
      rw [UInt64.le_iff_toNat_le] at hlo hhi
      have hlt := hsamples s hs
      omega
    cases samples with
    | nil => exact absurd rfl hne
    | cons s samples =>
      obtain ⟨⟨hlo, hhi⟩, hrest⟩ := List.forall_mem_cons.mp hbounds'
      -- The first sample is the first estimate.
      have hfirst : ((configure cfg rs).updateRtt s).Estimates lo.toNat (min hi.toNat (2 ^ 60 - 1)) :=
        estimates_updateRtt (fun h => by cases h) hlo hhi (by omega)
      have hall : ((configure cfg rs).sampled (s :: samples)).Estimates _ _ :=
        hfirst.sampled hrest (by omega)
      obtain ⟨hle, hge, hvar⟩ := hall
      have hone : (1 : UInt64).toNat = 1 := rfl
      rw [UInt64.le_iff_toNat_le, UInt64.le_iff_toNat_le, UInt64.le_iff_toNat_le, UInt64.toNat_max]
      exact ⟨hle, by omega, by omega⟩
  · refine (hzero.sampled (fun s hs => ?_) (by omega)).fits hs
    have hlt := hsamples s hs
    omega

/-- Three samples, and the timeouts they lead to. -/
theorem rtt_estimator_three_samples :
    ((configure {} {}).sampled [80, 40, 200]).srttMs = 90 ∧
      ReliabilityConfig.Allows {} ((configure {} {}).sampled [80, 40, 200]).rtoMs :=
  ⟨by decide, (rtt_estimator_bounds (by decide) {} (by simp)).2.1⟩

end ReliableSession

end SecureCnet
