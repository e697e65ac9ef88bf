import SecureCnet.Client.PacketQueue

/-!
# Pacing

A client sends what its bucket holds. The bucket gains at most the configured rate for the
time since its last refill, never holds more than its cap, and is not overdrawn. So the
bytes that leave are bounded by what the bucket held and by what the elapsed time gains at
the highest rate, whatever the rate was in between.
-/

namespace SecureCnet

/-- The highest rate of a client, in bytes a second. -/
def ClientConfig.maxRate (config : ClientConfig) : ℕ :=
  if config.congestion.enabled = false ∨ config.congestion.maxRateBytesPerSecond = 0 then
    config.sendBudgetBytesPerSecond.toNat
  else config.congestion.maxRateBytesPerSecond.toNat

namespace SendBudget

/-- The bucket of a client with the configuration, last refilled at some time up to `t`. -/
structure Paced (config : ClientConfig) (t : UInt64) (b : SendBudget) : Prop where
  regular : b.congestion.Regular
  cfg : b.congestion.cfg = config.congestion
  sendRate : b.congestion.configuredSendRate = max 1 config.sendBudgetBytesPerSecond.toUInt64
  started : b.lastBudgetRefillMs ≠ 0
  refilled_le : b.lastBudgetRefillMs ≤ t
  capped : b.sendBudgetBytes ≤ b.congestion.bucketCapBytes

/-- The bucket is what `b₀` has become after `flushed` bytes were taken from it. -/
structure Flows (config : ClientConfig) (t : UInt64) (b₀ : SendBudget) (flushed : ℕ)
    (b : SendBudget) : Prop extends b.Paced config t where
  refilled : b₀.lastBudgetRefillMs.toNat ≤ b.lastBudgetRefillMs.toNat
  flushed_le : 1000 * (flushed + b.sendBudgetBytes.toNat) ≤ 1000 * b₀.sendBudgetBytes.toNat +
    b.congestion.configuredMaxRate.toNat *
      (b.lastBudgetRefillMs.toNat - b₀.lastBudgetRefillMs.toNat)

variable {config : ClientConfig} {t now : UInt64} {b₀ b b' : SendBudget} {flushed : ℕ}

theorem Paced.flows (h : b.Paced config t) : b.Flows config t 0 b :=
  ⟨h, le_rfl, by simp⟩

theorem toNat_bucketCap {c : CongestionController} (h : c.Regular) :
    c.bucketCapBytes.toNat = max NetConfig.maxPacketBytes (c.rateBytesPerSecond.toNat * 2) := by
  have hrate := h.rate_lt
  unfold CongestionController.bucketCapBytes
  rw [UInt64.toNat_max, UInt64.toNat_mul, Nat.mod_eq_of_lt]
  · rfl
  · change _ * 2 < _
    omega

theorem rate_le_maxRate {c : CongestionController} (h : c.Regular) :
    c.rateBytesPerSecond.toNat ≤ c.configuredMaxRate.toNat := by
  unfold CongestionController.rateBytesPerSecond
  split_ifs with hen
  · exact UInt64.le_iff_toNat_le.mp (h.le_maxRate hen)
  · simp [CongestionController.configuredMaxRate, hen]

/-- Nothing is gained or taken; the rate may change. -/
theorem Flows.adjust (h : b₀.Flows config t flushed b) (hreg : b'.congestion.Regular)
    (hcfg : b'.congestion.cfg = b.congestion.cfg)
    (hsend : b'.congestion.configuredSendRate = b.congestion.configuredSendRate)
    (hlast : b'.lastBudgetRefillMs = b.lastBudgetRefillMs)
    (hbytes : b'.sendBudgetBytes ≤ b.sendBudgetBytes)
    (hcap : b'.sendBudgetBytes ≤ b'.congestion.bucketCapBytes) : b₀.Flows config t flushed b' where
  regular := hreg
  cfg := hcfg.trans h.cfg
  sendRate := hsend.trans h.sendRate
  started := hlast ▸ h.started
  refilled_le := hlast ▸ h.refilled_le
  capped := hcap
  refilled := hlast ▸ h.refilled
  flushed_le := by
    rw [CongestionController.configuredMaxRate_congr hcfg hsend, hlast]
    have hle := UInt64.le_iff_toNat_le.mp hbytes
    exact (Nat.mul_le_mul_left _ (Nat.add_le_add_left hle _)).trans h.flushed_le

theorem trim_le (b : SendBudget) :
    b.trim.sendBudgetBytes ≤ b.sendBudgetBytes ∧
      b.trim.sendBudgetBytes ≤ b.trim.congestion.bucketCapBytes := by
  simp only [trim, UInt64.le_iff_toNat_le, UInt64.toNat_min]
  exact ⟨min_le_left _ _, min_le_right _ _⟩

theorem Flows.event (h : b₀.Flows config t flushed b) (hevent : b.Event b') :
    b₀.Flows config t flushed b' := by
  cases hevent with
  | acked ack =>
    have hreg : (b.onAck ack).congestion.Regular := h.regular.onAck ..
    obtain ⟨hcfg, hsend, -⟩ := CongestionController.onAck_rate ack.rttSampleValid ack.rttSampleMs
      ack.retransmitted b.congestion
    refine h.adjust hreg hcfg hsend rfl (UInt64.le_refl _) (UInt64.le_trans h.capped ?_)
    -- The rate has not gone down, nor has the cap.
    have hrate : b.congestion.rateBytesPerSecond.toNat ≤
        (b.onAck ack).congestion.rateBytesPerSecond.toNat := by
      simp only [CongestionController.rateBytesPerSecond, onAck, hcfg, hsend]
      split_ifs with hen
      · exact UInt64.le_iff_toNat_le.mp (h.regular.le_onAck hen ..)
      · exact le_rfl
    rw [UInt64.le_iff_toNat_le, toNat_bucketCap h.regular, toNat_bucketCap hreg]
    exact max_le_max le_rfl (Nat.mul_le_mul_right 2 hrate)
  | lost now losses =>
    obtain ⟨hcfg, hsend⟩ := b.congestion.onLoss_cfg now losses
    exact h.adjust (h.regular.onLoss now losses) hcfg hsend rfl (trim_le _).1 (trim_le _).2

theorem Flows.onBackpressure (h : b₀.Flows config t flushed b) (now : UInt64) :
    b₀.Flows config t flushed (b.onBackpressure now) := by
  obtain ⟨hcfg, hsend⟩ := b.congestion.onBackpressure_cfg now
  exact h.adjust (h.regular.onBackpressure now).1 hcfg hsend rfl (trim_le _).1 (trim_le _).2

/-- A refill gains at most the highest rate for the time since the last one; an overflow only makes
it smaller. -/
theorem Flows.refill (h : b₀.Flows config t flushed b) (hnow : now ≤ t) :
    b₀.Flows config t flushed (b.refillSendBudget now) := by
  unfold refillSendBudget
  rw [if_neg h.started]
  dsimp only
  split_ifs with hlast hgain
  · exact h
  · have hlt := UInt64.not_le.mp hlast
    have hlt' := UInt64.lt_iff_toNat_lt.mp hlt
    have hsub := UInt64.toNat_sub_of_le _ _ (UInt64.le_of_lt hlt)
    refine ⟨⟨h.regular, h.cfg, h.sendRate, ?_, hnow, ?_⟩, ?_, ?_⟩
    · exact fun hzero => UInt64.not_lt_zero (show b.lastBudgetRefillMs < 0 from hzero ▸ hlt)
    · rw [UInt64.le_iff_toNat_le, UInt64.toNat_min]
      exact min_le_left _ _
    · exact h.refilled.trans hlt'.le
    · have hold := h.flushed_le
      have hrefilled := h.refilled
      have hgained : 1000 * (b.congestion.rateBytesPerSecond * (now - b.lastBudgetRefillMs) /
          1000).toNat ≤ b.congestion.configuredMaxRate.toNat *
            (now.toNat - b.lastBudgetRefillMs.toNat) := by
        rw [UInt64.toNat_div, UInt64.toNat_mul, hsub]
        calc 1000 * (_ % 2 ^ 64 / 1000) ≤ _ % 2 ^ 64 := Nat.mul_div_le _ _
          _ ≤ b.congestion.rateBytesPerSecond.toNat *
              (now.toNat - b.lastBudgetRefillMs.toNat) := Nat.mod_le _ _
          _ ≤ _ := Nat.mul_le_mul_right _ (rate_le_maxRate h.regular)
      have hsum : (min b.congestion.bucketCapBytes (b.sendBudgetBytes +
          b.congestion.rateBytesPerSecond * (now - b.lastBudgetRefillMs) / 1000)).toNat ≤
          b.sendBudgetBytes.toNat +
            (b.congestion.rateBytesPerSecond * (now - b.lastBudgetRefillMs) / 1000).toNat := by
        rw [UInt64.toNat_min, UInt64.toNat_add]
        exact (min_le_right _ _).trans (Nat.mod_le _ _)
      have htime : now.toNat - b₀.lastBudgetRefillMs.toNat =
          (b.lastBudgetRefillMs.toNat - b₀.lastBudgetRefillMs.toNat) +
            (now.toNat - b.lastBudgetRefillMs.toNat) := by omega
      dsimp only
      rw [htime, Nat.mul_add _ (b.lastBudgetRefillMs.toNat - _)]
      omega
  · exact h

theorem Flows.spend (h : b₀.Flows config t flushed b) {len : ℕ}
    (hlen : len ≤ b.sendBudgetBytes.toNat) : b₀.Flows config t (flushed + len) (b.spend len) := by
  have hspent := toNat_spend hlen
  refine ⟨⟨h.regular, h.cfg, h.sendRate, h.started, h.refilled_le, ?_⟩, h.refilled, ?_⟩
  · have hcap := UInt64.le_iff_toNat_le.mp h.capped
    rw [UInt64.le_iff_toNat_le]
    exact le_trans (by omega) hcap
  · have hsum : flushed + len + (b.spend len).sendBudgetBytes.toNat =
        flushed + b.sendBudgetBytes.toNat := by omega
    rw [hsum]
    exact h.flushed_le

end SendBudget

theorem validateClientConfig_congestion {config : ClientConfig}
    (h : validateClientConfig config = .ok ()) :
    validateCongestionControlConfig config.congestion config.sendBudgetBytesPerSecond = .ok () ∧
      config.sendBudgetBytesPerSecond ≠ 0 := by
  unfold validateClientConfig at h
  simp only [Result.bind_eq_ok, reject_eq_ok] at h
  obtain ⟨_, _, _, _, _, hcongestion, _, _, _, _, _, _, hsend⟩ := h
  exact ⟨hcongestion, by simpa using hsend⟩

namespace Client

variable {C : Crypto} {config : ClientConfig} {t now : UInt64} {c₀ c c' : Client} {l : List Act}

/-- The client is reached, and the datagrams sent since `c₀` were paid for from its bucket. -/
structure Pays (C : Crypto) (config : ClientConfig) (t : UInt64) (c₀ c : Client) : Prop where
  reached : Reached C config c
  flows : ∃ sent : List Bytes, c.wire = c₀.wire ++ sent ∧
    c₀.session.budget.Flows config t (sent.map List.length).sum c.session.budget

/-- What leaves is covered by the bucket. -/
theorem Reached.covered (h : Reached C config c) {socket : SocketResult} {bytes : Bytes} {p : Party}
    (hflush : c.party.flushAt now 0 socket = (some bytes, p)) :
    bytes.length ≤ (c.session.budget.refillSendBudget now).sendBudgetBytes.toNat ∧
      p.session.budget = (c.session.budget.refillSendBudget now).spend bytes.length := by
  obtain ⟨pkt, hpkt, rfl, hcovered, rfl⟩ := Party.flushAt_eq_some hflush
  have hshort := h.inOrder.short pkt (List.mem_of_getElem? hpkt)
  have hle := UInt64.le_iff_toNat_le.mp (UInt64.not_lt.mp hcovered)
  rw [UInt64.toNat_ofNat', Nat.mod_eq_of_lt (hshort.trans_lt (by decide))] at hle
  exact ⟨hle, rfl⟩

theorem Pays.touch (h : Pays C config t c₀ c) (htouch : c.Touch t c') : Pays C config t c₀ c' := by
  refine ⟨h.reached.touched htouch, ?_⟩
  obtain ⟨sent, hwire, hflows⟩ := h.flows
  cases htouch with
  | ran _ hsame hstocks =>
    refine ⟨sent, hsame.trans hwire, ?_⟩
    have hbudget := hstocks.budget
    change Relation.ReflTransGen SendBudget.Event c.session.budget c'.session.budget at hbudget
    generalize c'.session.budget = b at hbudget
    induction hbudget with
    | refl => exact hflows
    | tail _ hevent ih => exact ih.event hevent
  | @visited now socket hnow =>
    have hrefill := hflows.refill hnow
    unfold visitHead
    dsimp only
    split <;> rename_i bytes p heq
    · obtain ⟨hcovered, hbudget⟩ := h.reached.covered heq
      refine ⟨sent ++ [bytes], by rw [hwire, List.append_assoc], ?_⟩
      rw [withParty_session, hbudget]
      simpa using hrefill.spend hcovered
    · refine ⟨sent, hwire, ?_⟩
      rcases Party.flushAt_none_budget heq with hbudget | hbudget | hbudget <;>
        rw [withParty_session, hbudget]
      · exact hflows
      · exact hrefill
      · exact hrefill.onBackpressure now

theorem Pays.touches (h : Pays C config t c₀ c) (htouches : c.Touches t c') :
    Pays C config t c₀ c' := by
  induction htouches with
  | refl => exact h
  | tail _ htouch ih => exact ih.touch htouch

theorem Pays.acts (h : Pays C config t c₀ c) (hlasting : ∀ a ∈ l, a.lasting = true)
    (htimes : ∀ a ∈ l, ∀ now ∈ a.times, now ≤ t) : Pays C config t c₀ (c.acts C l) := by
  induction l generalizing c with
  | nil => exact h
  | cons a l ih =>
    obtain ⟨ha, hl⟩ := List.forall_mem_cons.mp hlasting
    obtain ⟨hta, htl⟩ := List.forall_mem_cons.mp htimes
    exact ih (h.touches (act_touches ha hta c)) hl htl

/-- The client is reached, and its bucket is in order. -/
structure Paced (C : Crypto) (config : ClientConfig) (t : UInt64) (c : Client) : Prop where
  reached : Reached C config c
  budget : c.session.budget.Paced config t

theorem Paced.pays (h : Paced C config t c) : Pays C config t c c :=
  ⟨h.reached, [], by simp, h.budget.flows⟩

theorem Paced.touches (h : Paced C config t c) (htouches : c.Touches t c') :
    c'.session.budget.Paced config t := by
  obtain ⟨sent, -, hflows⟩ := (h.pays.touches htouches).flows
  exact hflows.toPaced

/-- A bucket that is filled anew. -/
theorem paced_fresh (hvalid : validateClientConfig config = .ok ()) (c : CongestionController)
    (hpos : 0 < now) (hnow : now ≤ t) :
    let congestion := CongestionController.configure config.congestion
      config.sendBudgetBytesPerSecond c
    SendBudget.Paced config t ⟨congestion, congestion.rateBytesPerSecond, now⟩ := by
  have hreg := CongestionController.regular_configure (validateClientConfig_congestion hvalid).1 c
  refine ⟨hreg, by simp [CongestionController.configure, CongestionController.resetRuntime],
    by simp [CongestionController.configure, CongestionController.resetRuntime],
    (UInt64.ne_of_lt hpos).symm, hnow, ?_⟩
  rw [UInt64.le_iff_toNat_le, SendBudget.toNat_bucketCap hreg]
  dsimp only
  omega

theorem resetSession_paced (h : c.session.budget.Paced config t)
    (hvalid : validateClientConfig config = .ok ()) (hpos : 0 < now) (hnow : now ≤ t) :
    (c.resetSession now).session.budget.Paced config t := by
  have hreset : c.session.budget.congestion.resetRuntime = CongestionController.configure
      config.congestion config.sendBudgetBytesPerSecond c.session.budget.congestion := by
    unfold CongestionController.configure
    rw [← h.cfg, ← h.sendRate]
  have hfresh := paced_fresh hvalid c.session.budget.congestion hpos hnow
  rw [← hreset] at hfresh
  exact hfresh

theorem stop_paced (h : c.session.budget.Paced config t)
    (hvalid : validateClientConfig config = .ok ()) (hpos : 0 < now) (hnow : now ≤ t) :
    (c.stop now).session.budget.Paced config t := by
  have hclosed : ({ c with net := { c.net with sockOpen := false } } :
      Client).session.budget.Paced config t := h
  have hreset := resetSession_paced hclosed hvalid hpos hnow
  unfold stop
  dsimp only
  rw [Session.transitionState_budget]
  exact hreset

theorem connect_paced (h : Paced C config t c) (hvalid : validateClientConfig config = .ok ())
    (server : Endpoint) (setup : SocketSetup) (seed : Block 32) (nonce : Block 16) (hpos : 0 < now)
    (hnow : now ≤ t) {visits : Visits} (hvisits : ∀ now ∈ visits.map Prod.fst, now ≤ t) :
    (c.connect C server setup seed nonce now visits).2.session.budget.Paced config t := by
  have hreset := resetSession_paced (stop_paced h.budget hvalid hpos hnow) hvalid hpos hnow
  have hconnect := connect_outcome (C := C) server setup seed nonce now visits c
  generalize (c.connect C server setup seed nonce now visits).2 = c' at hconnect
  cases hconnect with
  | refused => exact h.budget
  | halted hr =>
    rw [hr.budget]
    exact hreset
  | @begun c₀ hr =>
    refine Paced.touches (C := C) (c := c₀.beginHandshake C seed nonce now)
      ⟨h.reached.emptied hr.config hr.wire hr.pending hr.pendingBytes, ?_⟩
      (sendClientHello_touches hvisits _)
    rw [beginHandshake, Session.transitionState_budget, hr.budget]
    exact hreset

theorem Paced.act (h : Paced C config t c) (hvalid : validateClientConfig config = .ok ()) {a : Act}
    (htimes : ∀ now ∈ a.times, 0 < now ∧ now ≤ t) : Paced C config t (c.act C a) := by
  refine ⟨h.reached.act a, ?_⟩
  have hlate := fun now hnow => (htimes now hnow).2
  cases a with
  | connect server setup seed nonce now visits =>
    obtain ⟨hpos, hnow⟩ := htimes now List.mem_cons_self
    exact connect_paced h hvalid server setup seed nonce hpos hnow fun now' hnow' =>
      hlate now' (List.mem_cons_of_mem _ hnow')
  | stop now =>
    obtain ⟨hpos, hnow⟩ := htimes now List.mem_cons_self
    exact stop_paced h.budget hvalid hpos hnow
  | _ => exact h.touches (act_touches rfl hlate c)

theorem Paced.acts (h : Paced C config t c) (hvalid : validateClientConfig config = .ok ())
    (htimes : ∀ a ∈ l, ∀ now ∈ a.times, 0 < now ∧ now ≤ t) : Paced C config t (c.acts C l) := by
  induction l generalizing c with
  | nil => exact h
  | cons a l ih =>
    obtain ⟨ha, hl⟩ := List.forall_mem_cons.mp htimes
    exact ih (h.act hvalid ha) hl

theorem toNat_configuredMaxRate {b : SendBudget} (h : b.Paced config t)
    (hsend : config.sendBudgetBytesPerSecond ≠ 0) :
    b.congestion.configuredMaxRate.toNat = config.maxRate := by
  have hpos : 1 ≤ config.sendBudgetBytesPerSecond.toNat :=
    Nat.pos_of_ne_zero fun hzero => hsend (UInt32.toNat_inj.mp hzero)
  have hrate : b.congestion.configuredSendRate.toNat = config.sendBudgetBytesPerSecond.toNat := by
    rw [h.sendRate, UInt64.toNat_max, UInt32.toNat_toUInt64]
    exact max_eq_right hpos
  unfold CongestionController.configuredMaxRate ClientConfig.maxRate
  rw [h.cfg]
  cases config.congestion.enabled with
  | false => simp [hrate]
  | true =>
    by_cases hzero : config.congestion.maxRateBytesPerSecond = 0
    · simp [hzero, hrate]
    · simp [hzero]

/-- From any state of a run whose clock shows positive times up to `t`, a client sends at most what
its bucket holds and what the time since its last refill gains at the highest rate. The bucket never
exceeds its cap, and no packet takes more than there is. -/
theorem flushed_bytes_bounded (hvalid : validateClientConfig config = .ok ()) {start : UInt64}
    {before : List Act} (hstart : 0 < start ∧ start ≤ t)
    (htimes : ∀ a ∈ before ++ l, ∀ now ∈ a.times, 0 < now ∧ now ≤ t)
    (hlasting : ∀ a ∈ l, a.lasting = true) :
    let c := (create config start).acts C before
    let c' := c.acts C l
    c'.session.budget.sendBudgetBytes ≤ c'.session.budget.congestion.bucketCapBytes ∧
      (∀ now socket bytes p, c'.party.flushAt now 0 socket = (some bytes, p) →
        p.session.budget.sendBudgetBytes.toNat + bytes.length =
          (c'.session.budget.refillSendBudget now).sendBudgetBytes.toNat) ∧
      ∃ sent, c'.wire = c.wire ++ sent ∧ (sent.map List.length).sum ≤
        c.session.budget.sendBudgetBytes.toNat +
          config.maxRate * (t.toNat - c.session.budget.lastBudgetRefillMs.toNat) / 1000 := by
  intro c c'
  obtain ⟨hbefore, hl⟩ := List.forall_mem_append.mp htimes
  have hcreated : Paced C config t (create config start) :=
    ⟨.created start, paced_fresh hvalid {} hstart.1 hstart.2⟩
  have hpaced : Paced C config t c := hcreated.acts hvalid hbefore
  obtain ⟨hreached, sent, hwire, hflows⟩ := hpaced.pays.acts (C := C) hlasting
    fun a ha now hnow => (hl a ha now hnow).2
  refine ⟨hflows.capped, fun now socket bytes p hflush => ?_, sent, hwire, ?_⟩
  · obtain ⟨hcovered, hbudget⟩ := hreached.covered hflush
    rw [hbudget]
    exact SendBudget.toNat_spend hcovered
  · have hle := hflows.flushed_le
    rw [toNat_configuredMaxRate hflows.toPaced (validateClientConfig_congestion hvalid).2] at hle
    have hlast := UInt64.le_iff_toNat_le.mp hflows.refilled_le
    have hmul := Nat.mul_le_mul_left config.maxRate (Nat.sub_le_sub_right hlast
      c.session.budget.lastBudgetRefillMs.toNat)
    omega

/-- A client is set up while its socket is busy; then the hello leaves. -/
theorem hello_bytes_bounded :
    let c := (create {} 1000).acts .checksum
      [.connect loopback .ready (Block.zero 32) (Block.zero 16) 1000 []]
    let c' := c.acts .checksum [.visit 1500 .sent]
    c'.wire ≠ [] ∧ ∃ sent, c'.wire = c.wire ++ sent ∧ (sent.map List.length).sum ≤
      c.session.budget.sendBudgetBytes.toNat + ClientConfig.maxRate {} *
        (UInt64.toNat 2000 - c.session.budget.lastBudgetRefillMs.toNat) / 1000 := by
  have hvalid : validateClientConfig {} = .ok () := by decide
  have hstart : (0 : UInt64) < 1000 ∧ (1000 : UInt64) ≤ 2000 := by decide
  refine ⟨by decide +kernel, ?_⟩
  exact (flushed_bytes_bounded hvalid hstart (by simp [Act.times]) (by simp [Act.lasting])).2.2

end Client

end SecureCnet
