import SecureCnet.Server.Effects

/-!
# The session index

Sessions are stored by connection id and found by endpoint. Both maps change when a
session is created, replaced or evicted, and when the server stops; they stay
inverse to each other, and the caps on sessions hold, along every run.
-/

namespace SecureCnet

open PairedIndex

namespace Server

variable {C : Crypto} {N : InetNtop}

/-- Sessions and endpoints name each other, and the caps hold. -/
structure Indexed (srv : Server) : Prop where
  paired : Paired (fun ps => ps.session.connId) (fun ps => ps.session.endpoint) srv.sessions
    srv.endpointToConn
  nonzero : ∀ {connId ps}, srv.sessions.lookup connId = some ps → connId ≠ 0
  size : srv.sessions.keys.length ≤ srv.config.maxPeerSessions.toNat
  hosts : ∀ host, srv.sessionsForHost host ≤ srv.config.abuse.maxSessionsPerIp.toNat

variable {srv srv' : Server}

theorem sessionsForHost_eq_tally (host : Host) (srv : Server) :
    srv.sessionsForHost host = tally (fun ps => ps.session.endpoint.hostKey = host) srv.sessions :=
  rfl

theorem Evicts.sessionsForHost_le (h : srv.Evicts srv') (host : Host) :
    srv'.sessionsForHost host ≤ srv.sessionsForHost host :=
  tally_le_of_lookup h.sub fun ps => ps.session.endpoint.hostKey = host

theorem Indexed.of_eq (h : srv.Indexed) (hs : srv'.sessions = srv.sessions)
    (he : srv'.endpointToConn = srv.endpointToConn) (hc : srv'.config = srv.config) :
    srv'.Indexed where
  paired := by
    rw [hs, he]
    exact h.paired
  nonzero := by
    rw [hs]
    exact h.nonzero
  size := by
    rw [hs, hc]
    exact h.size
  hosts host := by
    rw [sessionsForHost_eq_tally, hs, hc]
    exact h.hosts host

theorem indexed_of_no_sessions (hs : srv.sessions = ∅) (he : srv.endpointToConn = ∅) :
    srv.Indexed where
  paired := by
    rw [hs, he]
    exact paired_empty _ _
  nonzero hl := by simp [hs] at hl
  size := by simp [hs]
  hosts host := by simp [sessionsForHost_eq_tally, hs]

theorem Indexed.lookup_zero (h : srv.Indexed) : srv.sessions.lookup 0 = none := by
  cases hzero : srv.sessions.lookup 0 with
  | none => rfl
  | some ps => exact absurd rfl (h.nonzero hzero)

theorem Indexed.store {connId : UInt64} {ps : PeerSession} {p : Party} (h : srv.Indexed)
    (hps : srv.sessions.lookup connId = some ps) (hp : (srv.party connId ps).Continues p) :
    (srv.store connId ps p).Indexed where
  paired := h.paired.update hps hp.connId hp.endpoint
  nonzero hl := by
    rcases of_lookup_store hl with ⟨rfl, -⟩ | ⟨-, hold⟩
    · exact h.nonzero hps
    · exact h.nonzero hold
  size := by
    have htally := tally_update (P := fun _ => true) (b := { ps with session := p.session }) hps rfl
    rw [tally_true, tally_true] at htally
    exact htally.trans_le h.size
  hosts host := by
    have htally := tally_update (P := fun ps : PeerSession => ps.session.endpoint.hostKey = host)
      (b := { ps with session := p.session }) hps (by rw [hp.endpoint]; rfl)
    exact htally.trans_le (h.hosts host)

theorem Indexed.evicts (h : srv.Indexed) (he : srv.Evicts srv')
    (hpaired : Paired (fun ps => ps.session.connId) (fun ps => ps.session.endpoint) srv'.sessions
      srv'.endpointToConn) : srv'.Indexed where
  paired := hpaired
  nonzero hl := h.nonzero (he.sub _ _ hl)
  size := by
    rw [he.rules.config]
    exact (length_keys_le_of_lookup he.sub).trans h.size
  hosts host := by
    rw [he.rules.config]
    exact (he.sessionsForHost_le host).trans (h.hosts host)

theorem Indexed.evict (h : srv.Indexed) (connId : UInt64) : (srv.evictSession connId).Indexed := by
  refine h.evicts (evictSession_evicts connId srv) ?_
  unfold evictSession
  cases hps : srv.sessions.lookup connId with
  | none => exact h.paired
  | some ps => exact h.paired.remove hps

/-- Among the numbers the random source goes through there is always a free one. -/
theorem allocateConnId_usable (srv : Server) (candidates : List UInt64)
    (h : srv.sessions.keys.length + 1 < 2 ^ 64) :
    srv.usable (srv.allocateConnId candidates) = true := by
  have hfound : (candidates ++ (List.range (srv.sessions.keys.length + 1)).map
      fun i => UInt64.ofNat (i + 1)).find? srv.usable ≠ none := by
    intro hnone
    rw [List.find?_eq_none] at hnone
    -- All spare numbers would have to be in use: one more than there are sessions.
    have hsub : (List.range (srv.sessions.keys.length + 1)).map (fun i => UInt64.ofNat (i + 1)) ⊆
        srv.sessions.keys := by
      intro connId hmem
      have hused := hnone connId (List.mem_append_right _ hmem)
      obtain ⟨i, hi, rfl⟩ := List.mem_map.mp hmem
      rw [List.mem_range] at hi
      have hnz : UInt64.ofNat (i + 1) ≠ 0 := by
        intro hz
        have hnat := congrArg UInt64.toNat hz
        rw [UInt64.toNat_ofNat_of_lt' (by simp only [UInt64.size]; omega)] at hnat
        simp at hnat
      simp only [usable, Bool.and_eq_true, decide_eq_true_eq, Option.isNone_iff_eq_none,
        not_and, ne_eq, hnz, not_false_eq_true, true_implies] at hused
      exact AList.lookup_isSome.mp (Option.isSome_iff_ne_none.mpr hused)
    have hnodup : ((List.range (srv.sessions.keys.length + 1)).map
        fun i => UInt64.ofNat (i + 1)).Nodup := by
      refine List.Nodup.map_on ?_ List.nodup_range
      intro i hi j hj heq
      rw [List.mem_range] at hi hj
      have hnat := congrArg UInt64.toNat heq
      rw [UInt64.toNat_ofNat_of_lt' (by simp only [UInt64.size]; omega),
        UInt64.toNat_ofNat_of_lt' (by simp only [UInt64.size]; omega)] at hnat
      omega
    have hlen := (List.subperm_of_subset hnodup hsub).length_le
    simp at hlen
  obtain ⟨connId, hconn⟩ := Option.ne_none_iff_exists'.mp hfound
  have husable := List.find?_some hconn
  unfold allocateConnId
  dsimp only
  rw [hconn]
  exact husable

theorem usable_eq_true {connId : UInt64} :
    srv.usable connId = true ↔ connId ≠ 0 ∧ srv.sessions.lookup connId = none := by
  simp [usable]

theorem Indexed.lookup_evictEndpoint (h : srv.Indexed) (endpoint : Endpoint) :
    (srv.evictEndpoint endpoint).endpointToConn.lookup endpoint = none := by
  unfold evictEndpoint findSessionByEndpoint
  cases hl : srv.endpointToConn.lookup endpoint with
  | none => exact hl
  | some connId =>
    obtain ⟨ps, hps, he⟩ := h.paired.backward hl
    have hown : ps.session.connId = connId := h.paired.own hps
    simp only [hps]
    unfold evictSession
    rw [hown, hps, ← he]
    exact AList.lookup_erase ps.session.endpoint srv.endpointToConn

theorem Indexed.evictEndpoint (h : srv.Indexed) (endpoint : Endpoint) :
    (srv.evictEndpoint endpoint).Indexed := by
  unfold Server.evictEndpoint
  cases srv.findSessionByEndpoint endpoint with
  | none => exact h
  | some existing => exact h.evict _

/-- A new session under a free id, for an endpoint without one. -/
theorem Indexed.emplace {a : Admission} (h : srv.Indexed)
    (hid : srv.usable a.peer.session.connId = true) (hsrc : a.peer.session.endpoint = a.source)
    (hfree : srv.endpointToConn.lookup a.source = none)
    (hsize : srv.sessions.keys.length < srv.config.maxPeerSessions.toNat)
    (hhost : srv.sessionsForHost a.source.hostKey < srv.config.abuse.maxSessionsPerIp.toNat) :
    (srv.emplace a).Indexed := by
  obtain ⟨hnz, hnone⟩ := usable_eq_true.mp hid
  refine ⟨?_, ?_, ?_, ?_⟩
  · have hadd := h.paired.add hnone (hsrc.symm ▸ hfree)
    rw [hsrc] at hadd
    exact hadd
  · intro connId ps hl
    rcases of_lookup_insert hl with ⟨rfl, -⟩ | ⟨-, hold⟩
    · exact hnz
    · exact h.nonzero hold
  · have hle := tally_insert_le (fun _ => true) srv.sessions a.peer.session.connId a.peer
    rw [tally_true, tally_true] at hle
    exact hle.trans hsize
  · intro host
    have hle := tally_insert_le (fun ps : PeerSession => ps.session.endpoint.hostKey = host)
      srv.sessions a.peer.session.connId a.peer
    have hold := h.hosts host
    rw [sessionsForHost_eq_tally] at hold hhost
    refine hle.trans ?_
    by_cases hh : a.source.hostKey = host
    · subst hh
      simp only [hsrc, decide_true, if_true]
      exact hhost
    · simp only [hsrc, hh, decide_false, Bool.false_eq_true, if_false]
      exact hold

theorem Indexed.visited {now : UInt64} {i : ℕ} {pkt : PendingPacket} (h : srv.Indexed)
    (hv : srv.Visited now i pkt srv') : srv'.Indexed := by
  cases hv with
  | refused => exact h
  | sent howner => exact h.of_eq rfl rfl rfl
  | dropped howner hnone => exact h.of_eq rfl rfl rfl
  | left ps p socket bytes howner hps hflush =>
    have hcont := Party.flushAt_continues hflush
    exact (h.store hps hcont).of_eq rfl rfl rfl
  | stayed ps p socket howner hps hflush =>
    exact h.store hps (Party.flushAt_continues hflush)

variable {H : Endpoint → ClientHello → UInt64 → Prop}

theorem Indexed.admitted {source : Endpoint} {hello : ClientHello} {resumed : Bool} {now : UInt64}
    {draws : Draws} {keys : SessionKeys} (h : srv.Indexed) (hroom : srv.HasRoom source.hostKey) :
    ((srv.evictEndpoint source).advancePeerId.emplace ((srv.evictEndpoint source).admission C source
      hello resumed now draws keys)).Indexed := by
  have hevicts := evictEndpoint_evicts source srv
  have hevicted : (srv.evictEndpoint source).advancePeerId.Indexed :=
    (h.evictEndpoint source).of_eq rfl rfl rfl
  have hsize := (length_keys_le_of_lookup hevicts.sub).trans_lt hroom.sessions
  have hhost : srv.sessionsForHost source.hostKey < srv.config.abuse.maxSessionsPerIp.toNat := by
    -- The count of the source is 32 bits wide, and by the cap it never wraps.
    have hlt := UInt32.lt_iff_toNat_lt.mp hroom.hosts
    have hbound := (h.hosts source.hostKey).trans_lt (UInt32.toNat_lt _)
    rwa [UInt32.toNat_ofNat_of_lt' hbound] at hlt
  refine hevicted.emplace ?_ ?_ (h.lookup_evictEndpoint source) ?_ ?_
  · exact allocateConnId_usable _ draws.connIds
      (Nat.lt_of_le_of_lt hsize (UInt64.toNat_lt srv.config.maxPeerSessions))
  · exact admission_endpoint ..
  · exact hevicts.rules.config ▸ hsize
  · exact hevicts.rules.config ▸ (hevicts.sessionsForHost_le _).trans_lt hhost

theorem Indexed.change (h : srv.Indexed) (hc : Change C N H srv srv') : srv'.Indexed := by
  cases hc with
  | hosts hn =>
    have hsame := hn.sameTable
    exact h.of_eq hsame.sessions hsame.endpointToConn hsame.rules.config
  | counted endpoint bytes now => exact h.of_eq rfl rfl rfl
  | plain now dest kind payload connId owner ho => exact h.of_eq rfl rfl rfl
  | ran connId ps p hps hran => exact h.store hps (hran.continues ⟨srv.config, rfl⟩)
  | visited hpkt hv => exact h.visited hv
  | evicted connId => exact h.evict connId
  | numbered => exact h.of_eq rfl rfl rfl
  | admitted source hello resumed now draws keys htoken hroom hH hkeys => exact h.admitted hroom
  | forgot host => exact h.of_eq rfl rfl rfl
  | stopped => exact indexed_of_no_sessions rfl rfl
  | opened secret hH => exact h.of_eq rfl rfl rfl

theorem Change.config_eq (hc : Change C N H srv srv') : srv'.config = srv.config := by
  cases hc with
  | hosts hn => exact hn.sameTable.rules.config
  | visited hpkt hv => cases hv <;> rfl
  | evicted connId => exact (evictSession_evicts connId srv).rules.config
  | admitted source => exact (evictEndpoint_evicts source srv).rules.config
  | _ => rfl

theorem Steps.config_eq (hs : Steps C N H srv srv') : srv'.config = srv.config := by
  induction hs with
  | refl => rfl
  | tail _ hc ih => exact hc.config_eq.trans ih

theorem Indexed.steps (h : srv.Indexed) (hs : Steps C N H srv srv') : srv'.Indexed := by
  induction hs with
  | refl => exact h
  | tail _ hc ih => exact ih.change hc

theorem run_induction {P : Server → Prop} (hact : ∀ srv a, P srv → P (srv.act C N a))
    (h : P srv) (ops : List Op) : P (srv.run C N ops) := by
  have hacts : ∀ l srv, P srv → P (srv.acts C N l) := by
    intro l
    induction l with
    | nil => exact fun _ h => h
    | cons a l ih => exact fun srv h => ih _ (hact srv a h)
  induction ops generalizing srv with
  | nil => exact h
  | cons op ops ih =>
    obtain ⟨l, hl, -⟩ := step_acts (C := C) (N := N) op srv
    have hstep : P (srv.step C N op) := hl ▸ hacts l srv h
    exact ih hstep

theorem Indexed.run (h : srv.Indexed) (ops : List Op) : (srv.run C N ops).Indexed :=
  run_induction (fun srv a h => h.steps (act_steps a srv)) h ops

theorem run_config (ops : List Op) (srv : Server) : (srv.run C N ops).config = srv.config :=
  run_induction (P := fun srv' => srv'.config = srv.config)
    (fun srv' a h => (Steps.config_eq (act_steps (C := C) (N := N) a srv')).trans h) rfl ops

/-- After every run of a server the two maps are inverse to each other, no endpoint has two
sessions, and both caps hold. -/
theorem session_index (C : Crypto) (N : InetNtop) (config : ServerConfig) (ops : List Op) :
    let srv := ({ config } : Server).run C N ops
    (∀ connId ps, srv.sessions.lookup connId = some ps →
      connId ≠ 0 ∧ ps.session.connId = connId ∧
        srv.endpointToConn.lookup ps.session.endpoint = some connId) ∧
    (∀ endpoint connId, srv.endpointToConn.lookup endpoint = some connId →
      ∃ ps, srv.sessions.lookup connId = some ps ∧ ps.session.endpoint = endpoint) ∧
    (∀ connId connId' ps ps', srv.sessions.lookup connId = some ps →
      srv.sessions.lookup connId' = some ps' → ps.session.endpoint = ps'.session.endpoint →
      connId = connId') ∧
    srv.sessions.keys.length ≤ config.maxPeerSessions.toNat ∧
    ∀ host, srv.sessionsForHost host ≤ config.abuse.maxSessionsPerIp.toNat := by
  intro srv
  have h : srv.Indexed := (indexed_of_no_sessions rfl rfl).run ops
  have hconfig : srv.config = config := run_config ops _
  refine ⟨?_, ?_, ?_, hconfig ▸ h.size, hconfig ▸ h.hosts⟩
  · intro connId ps hps
    exact ⟨h.nonzero hps, h.paired.own hps, h.paired.forward hps⟩
  · intro endpoint connId hl
    exact h.paired.backward hl
  · intro connId connId' ps ps' hps hps' he
    exact h.paired.key_unique hps hps' he

end Server

end SecureCnet
