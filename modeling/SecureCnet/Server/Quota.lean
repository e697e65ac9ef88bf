import SecureCnet.Server.Callbacks
import SecureCnet.Session.Transmissions

/-!
# The reliable byte quota of a peer

Both reliable sessions of a peer get the whole of `max_queued_reliable_bytes_per_peer`
as their own limit, so that only one of them at a time can be relied on to keep it.
Together they keep it as long as every send finds the other queue empty, or leaves it
the rest of the quota.
-/

namespace SecureCnet

namespace Session

/-- The bytes both reliable sessions hold, by their own counters. -/
def heldBytes (s : Session) : ℕ :=
  s.reliable.pendingBytes.toNat + s.orderedReliable.pendingBytes.toNat

/-- The reliable session of the other reliable channel. -/
def otherReliable (ch : Channel) (s : Session) : ReliableSession :=
  if ch = .reliableOrdered then s.reliable else s.orderedReliable

/-- The bytes of a message, as its frames count for the quota. -/
def costOf (o : SendOptions) (t : UInt8) (payload : Bytes) (s : Session) : ℕ :=
  ((sendFrames o.channel t payload s).map fun msg => msg.data.length).sum

/-- A reliable send of an established session has no company in the other queue, or what it can
leave in its own queue fits into the quota next to the other one. -/
def Affords (quota : UInt32) (o : SendOptions) (t : UInt8) (payload : Bytes) (s : Session) : Prop :=
  s.state = .established → o.channel.isReliable = true →
    (s.reliableFor o.channel).pendingBytes.toNat + s.costOf o t payload < 2 ^ 32 ∧
      ((s.otherReliable o.channel).pendingBytes = 0 ∨
        min ((s.reliableFor o.channel).pendingBytes.toNat + s.costOf o t payload)
            (s.reliableFor o.channel).cfg.maxPendingBytes.toNat +
          (s.otherReliable o.channel).pendingBytes.toNat ≤ quota.toNat)

/-- The counters are right and keep the quota together. -/
structure Quoted (quota : UInt32) (s : Session) : Prop where
  counted : ∀ ch, (s.reliableFor ch).Counted
  limit : ∀ ch, (s.reliableFor ch).cfg.maxPendingBytes ≤ quota
  within : ReliableSession.bytes (s.reliableFor .reliable).pending +
    ReliableSession.bytes (s.reliableFor .reliableOrdered).pending ≤ quota.toNat

variable {quota : UInt32} {s s' : Session}

theorem bytes_add_bytes {ch : Channel} (hch : ch.isReliable = true) (s : Session) :
    ReliableSession.bytes (s.reliableFor .reliable).pending +
        ReliableSession.bytes (s.reliableFor .reliableOrdered).pending =
      ReliableSession.bytes (s.reliableFor ch).pending +
        ReliableSession.bytes (s.otherReliable ch).pending := by
  cases ch with
  | reliable => rfl
  | reliableOrdered => exact Nat.add_comm _ _
  | unreliable | sequencedUnreliable | control => cases hch

theorem otherReliable_eq (ch : Channel) (s : Session) :
    s.otherReliable ch = s.reliableFor (if ch = .reliableOrdered then .reliable
      else .reliableOrdered) := by
  unfold otherReliable reliableFor
  split_ifs <;> simp_all

theorem Quoted.bytes_lt (h : s.Quoted quota) (ch : Channel) :
    ReliableSession.bytes (s.reliableFor ch).pending < 2 ^ 32 := by
  have hwithin := h.within
  have hquota := quota.toNat_lt
  by_cases hch : ch = .reliableOrdered
  · subst hch
    omega
  · have hfor : s.reliableFor ch = s.reliableFor .reliable := by
      simp [reliableFor, hch]
    rw [hfor]
    omega

theorem Quoted.pendingBytes_toNat (h : s.Quoted quota) (ch : Channel) :
    (s.reliableFor ch).pendingBytes.toNat =
      ReliableSession.bytes (s.reliableFor ch).pending := by
  rw [(h.counted ch).pendingBytes, UInt32.toNat_ofNat']
  exact Nat.mod_eq_of_lt (h.bytes_lt ch)

theorem Quoted.heldBytes_eq (h : s.Quoted quota) :
    s.heldBytes = ReliableSession.bytes s.reliable.pending +
      ReliableSession.bytes s.orderedReliable.pending :=
  congrArg₂ (· + ·) (h.pendingBytes_toNat .reliable) (h.pendingBytes_toNat .reliableOrdered)

theorem Quoted.of_le (h : s.Quoted quota)
    (hcounted : ∀ ch, (s.reliableFor ch).Counted → (s'.reliableFor ch).Counted)
    (hcfg : ∀ ch, (s'.reliableFor ch).cfg = (s.reliableFor ch).cfg)
    (hbytes : ∀ ch, ReliableSession.bytes (s'.reliableFor ch).pending ≤
      ReliableSession.bytes (s.reliableFor ch).pending) : s'.Quoted quota :=
  ⟨fun ch => hcounted ch (h.counted ch), fun ch => hcfg ch ▸ h.limit ch,
    (Nat.add_le_add (hbytes _) (hbytes _)).trans h.within⟩

end Session

namespace ReliableSession

/-- The frames still to be posted fit next to what the other queue holds. -/
structure Fitting (quota : UInt32) (other : ℕ) (sizes : List ℕ) (rs : ReliableSession) : Prop where
  counted : rs.Counted
  limit : rs.cfg.maxPendingBytes ≤ quota
  fits : bytes rs.pending + sizes.sum < 2 ^ 32
  within : bytes rs.pending + other ≤ quota.toNat
  share : other = 0 ∨
    min (bytes rs.pending + sizes.sum) rs.cfg.maxPendingBytes.toNat + other ≤ quota.toNat

variable {quota : UInt32} {other : ℕ} {sizes : List ℕ} {rs : ReliableSession}

theorem Fitting.stop (h : rs.Fitting quota other sizes) : rs.Fitting quota other [] where
  counted := h.counted
  limit := h.limit
  fits := lt_of_le_of_lt (Nat.le_add_right _ _) h.fits
  within := h.within
  share := h.share.imp id fun hle =>
    (Nat.add_le_add_right (min_le_min_right _ (Nat.le_add_right _ _)) _).trans hle

/-- A frame that is posted takes no more than its part. -/
theorem Fitting.post {t : UInt8} {d : Bytes} (h : rs.Fitting quota other ((8 + d.length) :: sizes))
    (prio : SendPriority) (life now : UInt64) (queued : Bool) :
    (rs.post t d prio life now queued).Fitting quota other sizes := by
  obtain ⟨hcounted, hlimit, hfits, hwithin, hshare⟩ := h
  rw [List.sum_cons] at hfits hshare
  have hquota := UInt32.le_iff_toNat_le.mp hlimit
  have hle : bytes (rs.post t d prio life now queued).pending ≤
      bytes rs.pending + (8 + d.length) := by
    rcases rs.bytes_post t d prio life now queued with hle | ⟨hle, -⟩ <;> omega
  refine ⟨hcounted.post t d prio life now queued, ?_, by omega, ?_, ?_⟩
  · rw [post_cfg]
    exact hlimit
  · rcases rs.bytes_post t d prio life now queued with hsame | ⟨-, hcheck⟩
    · exact (Nat.add_le_add_right hsame _).trans hwithin
    · -- The budget check of the queue itself has not wrapped around.
      rw [UInt32.le_iff_toNat_le, UInt32.toNat_add, hcounted.pendingBytes, UInt32.toNat_ofNat',
        UInt32.toNat_ofNat', Nat.mod_eq_of_lt (show bytes rs.pending < 2 ^ 32 by omega),
        Nat.mod_eq_of_lt (show 8 + d.length < 2 ^ 32 by omega),
        Nat.mod_eq_of_lt (by omega)] at hcheck
      rcases hshare with hzero | hshare <;> omega
  · rw [post_cfg]
    exact hshare.imp id (by omega)

end ReliableSession

namespace Party

variable {C : Crypto} {quota : UInt32} {p p' : Party}

theorem Attended.quoted (h : p.Attended p') (hp : p.session.Quoted quota) :
    p'.session.Quoted quota :=
  hp.of_le h.counted h.cfg fun ch => ReliableSession.bytes_sublist (h.pending_sublist ch)

theorem Quoted.pumpReliable (h : p.session.Quoted quota) (now : UInt64) :
    (p.pumpReliable C now).2.session.Quoted quota := by
  refine pumpReliable_induction (C := C) (J := fun _ _ q => q.session.Quoted quota) now ?_ ?_
    (fun _ _ _ hq => ⟨hq.counted, hq.limit, hq.within⟩) (fun _ _ _ hq => hq) h
  · refine h.of_le (fun ch hc => ?_) (fun ch => ?_) fun ch => ?_
    all_goals rw [mapSession_session, reliableFor_expirePending]
    · exact hc.expireOld now
    · exact (ReliableSession.sameNumbers_expireOld now _).cfg
    · exact ReliableSession.bytes_sublist List.filter_sublist
  · intro ch _ _ q hch hq
    obtain ⟨n, hrep⟩ := resendChannel_replaces (C := C) ch now q
    -- The pass keeps the contents of its own queue; the other one stays as it is.
    have hcases : ∀ ch', (q.resendChannel C ch now).2.session.reliableFor ch' =
          ((q.session.reliableFor ch').resendDue now (resendOne C ch) q).2.1 ∨
        (q.resendChannel C ch now).2.session.reliableFor ch' = q.session.reliableFor ch' := by
      intro ch'
      by_cases hsame : ch' = .reliableOrdered ↔ ch = .reliableOrdered
      · left
        have hfor : ∀ s : Session, s.reliableFor ch' = s.reliableFor ch := fun s => by
          simp [Session.reliableFor, hsame]
        rw [hfor, hfor, hrep.own]
      · exact Or.inr (hrep.other ch' hsame)
    refine hq.of_le (fun ch' hc => ?_) (fun ch' => ?_) fun ch' => ?_
    all_goals rcases hcases ch' with h | h <;> rw [h]
    · exact hc.resendDue now _ q
    · exact hc
    · exact (ReliableSession.sameNumbers_resendDue now _ _ q).cfg
    · refine le_of_eq (ReliableSession.bytes_of_contents ?_)
      exact ((q.session.reliableFor ch').resendDue_spec now (resendOne C ch) (fun _ => True)
        (fun _ _ _ _ => trivial) q trivial).1

/-- A send that can be afforded keeps the quota. -/
theorem Quoted.send (h : p.session.Quoted quota) {o : SendOptions} {t : UInt8} {payload : Bytes}
    (hafford : p.session.Affords quota o t payload) (now : UInt64) :
    (p.send C o t payload now).2.session.Quoted quota := by
  by_cases hest : p.session.state = .established
  swap
  · rw [send_of_not_established hest]
    exact h
  cases hrel : o.channel.isReliable with
  | false =>
    have hsame := send_unreliable (C := C) hrel t payload now p
    exact h.of_le (fun ch hc => hsame ch ▸ hc) (fun ch => by rw [hsame]) fun ch => by rw [hsame]
  | true =>
    obtain ⟨hfits, hquota⟩ := hafford hest hrel
    generalize hother : ReliableSession.bytes (p.session.otherReliable o.channel).pending = other
    have hsum := h.within
    rw [Session.bytes_add_bytes hrel, hother] at hsum
    rw [h.pendingBytes_toNat] at hfits
    have hshare : other = 0 ∨
        min (ReliableSession.bytes (p.session.reliableFor o.channel).pending +
            p.session.costOf o t payload)
          (p.session.reliableFor o.channel).cfg.maxPendingBytes.toNat + other ≤ quota.toNat := by
      rw [Session.otherReliable_eq] at hquota hother
      rw [← hother, ← h.pendingBytes_toNat, ← h.pendingBytes_toNat]
      exact hquota.imp (fun hzero => by rw [hzero]; rfl) id
    have hfitting : (p.session.reliableFor o.channel).Fitting quota other
        ((sendFrames o.channel t payload p.session).map fun msg => msg.data.length) :=
      ⟨h.counted _, h.limit _, hfits, hsum, hshare⟩
    obtain ⟨ids, rs, n, hrep, hend, -⟩ := send_induction (C := C)
      (J := fun sizes _ rs => rs.Fitting quota other sizes) hrel t payload now p
      (fun t d sizes ids rs queued hJ => hJ.post o.priority o.lifetimeMs now queued)
      (fun sizes ids rs hJ => hJ.stop) hfitting
    have hcases : ∀ ch, (p.send C o t payload now).2.session.reliableFor ch = rs ∨
        (p.send C o t payload now).2.session.reliableFor ch = p.session.reliableFor ch := by
      intro ch
      by_cases hsame : ch = .reliableOrdered ↔ o.channel = .reliableOrdered
      · left
        rw [← hrep.own]
        simp [Session.reliableFor, hsame]
      · exact Or.inr (hrep.other ch hsame)
    refine ⟨fun ch => ?_, fun ch => ?_, ?_⟩
    · rcases hcases ch with heq | heq <;> rw [heq]
      · exact hend.counted
      · exact h.counted ch
    · rcases hcases ch with heq | heq <;> rw [heq]
      · exact hend.limit
      · exact h.limit ch
    · rw [Session.bytes_add_bytes hrel, hrep.own, Session.otherReliable_eq, hrep.other _ (by
        split_ifs with hord <;> simp [hord]), ← Session.otherReliable_eq, hother]
      exact hend.within

theorem call_quoted (h : p.session.Quoted quota) (k : Call)
    (hafford : ∀ o t payload now, k = .send o t payload now →
      p.session.Affords quota o t payload) : (p.call C k).session.Quoted quota := by
  cases k with
  | packet now packet => exact (receivePacket_attended now packet p).quoted h
  | close now reason => exact (closeSession_attended now reason p).quoted h
  | pumpReliable now => exact Quoted.pumpReliable h now
  | housekeep now => exact (runHousekeeping_attended now p).quoted h
  | send o t payload now => exact Quoted.send h (hafford o t payload now rfl) now
  | sendPayload data => exact (sendPayload_attended data p).quoted h
  | flush now i socket => exact (flushAt_attended now i socket p).quoted h

end Party

namespace Server

variable {C : Crypto} {N : InetNtop}

/-- Every send to a stored session can be afforded. -/
def Act.Affordable (a : Act) (srv : Server) : Prop :=
  match a with
  | .send _ connId options type payload _ => ∀ ps, srv.sessions.lookup connId = some ps →
      ps.session.Affords srv.config.abuse.maxQueuedReliableBytesPerPeer options type payload
  | _ => True

theorem admission_quoted (source : Endpoint) (hello : ClientHello) (resumed : Bool)
    (now : UInt64) (draws : Draws) (keys : SessionKeys) (srv : Server) :
    (srv.admission C source hello resumed now draws keys).peer.session.Quoted
      srv.config.abuse.maxQueuedReliableBytesPerPeer := by
  obtain ⟨cfg, hr, ho, hle⟩ : ∃ cfg : ReliabilityConfig,
      (srv.admission C source hello resumed now draws keys).peer.session.reliable =
        ReliableSession.configure cfg {} ∧
      (srv.admission C source hello resumed now draws keys).peer.session.orderedReliable =
        ReliableSession.configure cfg {} ∧
      cfg.maxPendingBytes ≤ srv.config.abuse.maxQueuedReliableBytesPerPeer := by
    refine ⟨_, (Party.transitionState_reliable _ _).1, (Party.transitionState_reliable _ _).2, ?_⟩
    change (if _ then _ else _) ≤ _
    split_ifs with h
    · exact h
    · exact UInt32.le_refl _
  have hfor : ∀ ch, (srv.admission C source hello resumed now draws keys).peer.session.reliableFor
      ch = ReliableSession.configure cfg {} := by
    intro ch
    rw [Session.reliableFor, hr, ho, ite_self]
  refine ⟨fun ch => ?_, fun ch => ?_, ?_⟩
  · rw [hfor]
    exact ReliableSession.counted_configure cfg
  · rw [hfor]
    exact hle
  · rw [hfor, hfor]
    exact Nat.zero_le _

/-- As long as every send can be afforded, both queues of every session together keep the quota,
and their counters are the bytes they hold. -/
theorem reliable_bytes_within_quota (config : ServerConfig) (l : List Act)
    (hsends : ∀ before a, before ++ [a] <+: l →
      a.Affordable (({ config } : Server).acts C N before))
    {connId : UInt64} {ps : PeerSession}
    (hps : (({ config } : Server).acts C N l).sessions.lookup connId = some ps) :
    ps.session.heldBytes ≤ config.abuse.maxQueuedReliableBytesPerPeer.toNat ∧
      ps.session.heldBytes = ReliableSession.bytes ps.session.reliable.pending +
        ReliableSession.bytes ps.session.orderedReliable.pending := by
  have hquoted : ps.session.Quoted config.abuse.maxQueuedReliableBytesPerPeer := by
    induction l using List.reverseRecOn generalizing connId ps with
    | nil => cases hps
    | append_singleton l a ih =>
      have hbefore : ∀ {connId : UInt64} {ps : PeerSession},
          (({ config } : Server).acts C N l).sessions.lookup connId = some ps →
            ps.session.Quoted config.abuse.maxQueuedReliableBytesPerPeer := fun hps =>
        ih (fun before a h => hsends before a (h.trans (List.prefix_append _ _))) hps
      have hafford := hsends l a (List.prefix_refl _)
      rw [acts_append, acts_cons, acts_nil] at hps
      have hidx : (({ config } : Server).acts C N l).Indexed := indexed_acts config l
      have hconfig : (({ config } : Server).acts C N l).config = config := acts_config l _
      generalize ({ config } : Server).acts C N l = srv at hps hbefore hidx hconfig hafford
      cases hidx.fate (C := C) (N := N) a connId with
      | kept h => exact hbefore (h ▸ hps)
      | called ps₀ p k hps₀ hcall hp hps' =>
        obtain rfl := Option.some.inj (hps.symm.trans hps')
        refine Party.call_quoted (hp.session ▸ hbefore hps₀) k fun o t payload now hk => ?_
        subst hk
        cases hcall
        rw [hp.session, ← hconfig]
        exact hafford ps₀ hps₀
      | dropped ps₀ _ _ hgone => cases hps.symm.trans hgone
      | admitted srv₁ source hello resumed now draws keys _ _ hconf _ hps' =>
        obtain rfl := Option.some.inj (hps.symm.trans hps')
        have hnew := admission_quoted (C := C) source hello resumed now draws keys srv₁
        rwa [hconf, hconfig] at hnew
  refine ⟨?_, hquoted.heldBytes_eq⟩
  rw [hquoted.heldBytes_eq]
  exact hquoted.within

/-- Four bytes to the announced client on the reliable channel. -/
def reported : List Act :=
  announced ++ [.send loopback 7 { channel := .reliable } 9 [1, 2, 3, 4] 1300]

theorem reported_within_quota :
    ∃ ps, (({} : Server).acts .checksum .standard reported).sessions.lookup 7 = some ps ∧
      ps.session.heldBytes ≤ ({} : ServerConfig).abuse.maxQueuedReliableBytesPerPeer.toNat ∧
      ps.session.heldBytes = ReliableSession.bytes ps.session.reliable.pending +
        ReliableSession.bytes ps.session.orderedReliable.pending := by
  have hsome : ((({} : Server).acts .checksum .standard reported).sessions.lookup 7).isSome := by
    decide +kernel
  obtain ⟨ps, hps⟩ := Option.isSome_iff_exists.mp hsome
  refine ⟨ps, hps, reliable_bytes_within_quota {} reported (fun before a hbefore => ?_) hps⟩
  -- The send is the last act, and the other queue is empty.
  rcases List.prefix_concat_iff.mp hbefore with hlast | hearlier
  · obtain ⟨rfl, hact⟩ := List.append_inj' hlast rfl
    obtain rfl := (List.singleton_injective hact)
    have hroom : (announcedServer.sessions.lookup 7).all (fun ps => decide
        ((ps.session.reliableFor .reliable).pendingBytes.toNat +
          ps.session.costOf { channel := .reliable } 9 [1, 2, 3, 4] < 2 ^ 32 ∧
        (ps.session.otherReliable .reliable).pendingBytes = 0)) = true := by
      decide +kernel
    intro ps hps _ _
    have hboth := of_decide_eq_true ((Option.all_eq_true _ _).mp hroom ps hps)
    exact ⟨hboth.1, Or.inl hboth.2⟩
  · have hmem : a ∈ announced := hearlier.subset (by simp)
    cases a with
    | send endpoint connId options type payload now => simp [announced, greeted] at hmem
    | _ => trivial

/-- Both limits are as small as the configuration check allows for full messages. -/
def tightConfig : ServerConfig where
  reliability := { maxPendingBytes := 1300 }
  abuse := { maxQueuedReliableBytesPerPeer := 1300 }

/-- Each queue is checked on its own, so that both of them are filled to the quota. -/
theorem both_queues_exceed_quota :
    validateServerConfig tightConfig = .ok () ∧
      ((({ config := tightConfig } : Server).acts .checksum .standard (announced ++
        [.send loopback 7 { channel := .reliable } 9 (List.replicate 1000 0) 1300,
          .send loopback 7 { channel := .reliableOrdered } 9 (List.replicate 1000 0)
            1300])).sessions.lookup 7).map (fun ps => (ps.session.heldBytes,
        ReliableSession.bytes ps.session.reliable.pending +
          ReliableSession.bytes ps.session.orderedReliable.pending)) = some (2024, 2024) := by
  decide +kernel

end Server

end SecureCnet
