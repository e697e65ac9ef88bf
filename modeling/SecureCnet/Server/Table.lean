import SecureCnet.Server.Replacement

/-!
# What one act does to a stored session

Each act leaves the session stored under an id alone, makes one call of session code
on it, drops it, or puts a new one in its place. Everything about the life of a
session in the table follows from that.
-/

namespace SecureCnet

open PairedIndex

namespace Party

/-- What session code of a server adds to the course of a session. -/
structure Follows (p p' : Party) : Prop where
  side : p'.side = p.side
  otherMemory : p'.otherMemory = p.otherMemory
  trace : p.session.trace <+: p'.session.trace
  walks : p.session.Walks p'.session

section

variable {C : Crypto} {p p' p'' : Party}

theorem Follows.refl (p : Party) : p.Follows p :=
  ⟨rfl, rfl, List.prefix_refl _, Session.walks_of_eq rfl rfl⟩

theorem Follows.trans (h : p.Follows p') (h' : p'.Follows p'') : p.Follows p'' :=
  ⟨h'.side.trans h.side, h'.otherMemory.trans h.otherMemory, h.trace.trans h'.trace,
    h.walks.trans h'.walks⟩

theorem follows_of_append {es : List Event} (hside : p'.side = p.side)
    (hmem : p'.otherMemory = p.otherMemory) (hstate : p'.session.state = p.session.state)
    (ht : p'.session.trace = p.session.trace ++ es) (hes : ∀ e ∈ es, e.transition = none) :
    p.Follows p' :=
  ⟨hside, hmem, ht ▸ List.prefix_append _ _,
    Session.walks_of_eq (Session.transitions_append hes ht) hstate⟩

theorem follows_of_eq (hside : p'.side = p.side) (hmem : p'.otherMemory = p.otherMemory)
    (hstate : p'.session.state = p.session.state) (ht : p'.session.trace = p.session.trace) :
    p.Follows p' :=
  follows_of_append hside hmem hstate (ht.trans (List.append_nil _).symm) (by simp)

theorem PacketEvent.transition_eq {e : Event} (h : PacketEvent e) : e.transition = none := by
  rcases h with rfl | ⟨key, nonce, rfl⟩ <;> rfl

theorem Queued.follows {kind : PacketKind} {payload : Bytes} {priority : SendPriority}
    {rc : Result Unit} (h : Queued C p kind payload priority rc p') : p.Follows p' := by
  obtain ⟨n, es, net, rfl, -, hes⟩ := h.upToNumber
  exact follows_of_append rfl rfl rfl rfl fun e he => PacketEvent.transition_eq (hes e he)

theorem Change.follows {A : Channel → UInt64 → Prop} (hside : ∃ config, p.side = .server config)
    (h : Change C A p p') : p.Follows p' := by
  cases h with
  | session s h =>
    obtain ⟨es, ht, -⟩ := h.trace
    exact ⟨rfl, rfl, ht ▸ List.prefix_append _ _, h.walks⟩
  | dies _ h =>
    -- Only clients die.
    obtain ⟨config, hc⟩ := hside
    obtain ⟨config', hc'⟩ := h.dead.1
    rw [h.side, hc] at hc'
    cases hc'
  | ends config hs hstate =>
    rw [ends_eq hstate]
    refine ⟨rfl, rfl, List.prefix_append _ _, [(.closing, .closed)], ?_, ?_⟩
    · simp [Session.transitions, Event.transition]
    · rw [hstate]
      exact .cons (by decide) (.nil _)
  | queue _ kind payload priority rc h hk hm => exact h.follows
  | ack q ch id h =>
    exact h.follows.trans (follows_of_append rfl rfl rfl rfl (List.forall_mem_singleton.mpr rfl))
  | plain _ h =>
    obtain ⟨s, net, rfl, rfl | rfl, -⟩ := h.shape
    · exact follows_of_eq rfl rfl rfl rfl
    · exact follows_of_append rfl rfl rfl rfl (List.forall_mem_singleton.mpr rfl)

theorem Steps.follows {A : Channel → UInt64 → Prop} (hside : ∃ config, p.side = .server config)
    (h : Steps C A p p') : p.Follows p' := by
  induction h with
  | refl => exact .refl p
  | tail _ hc ih =>
    rw [← ih.side] at hside
    exact ih.trans (hc.follows hside)

theorem Sending.follows {priority : SendPriority} {msgs : List MsgView}
    (h : Sending C priority p msgs p') : p.Follows p' := by
  refine h.rule .refl .trans ?_ Queued.follows
  rintro p s ⟨_, _, _, _, _, es, rfl, hes⟩
  refine follows_of_append rfl rfl rfl rfl fun e he => ?_
  obtain ⟨k, -, rfl⟩ := hes e he
  rfl

theorem flushAt_follows (now : UInt64) (i : ℕ) (socket : SocketResult) (p : Party) :
    p.Follows (p.flushAt now i socket).2 := by
  obtain ⟨budget, lastSendMs, net, h, -⟩ := flushAt_shape now i socket p
  rw [h]
  exact follows_of_eq rfl rfl rfl rfl

end

/-- The calls a server makes on one of its sessions. -/
inductive Call
  | packet (now : UInt64) (packet : PacketView)
  | close (now : UInt64) (reason : CloseReason)
  | pumpReliable (now : UInt64)
  | housekeep (now : UInt64)
  | send (options : SendOptions) (type : UInt8) (payload : Bytes) (now : UInt64)
  | sendPayload (data : Bytes)
  | flush (now : UInt64) (i : ℕ) (socket : SocketResult)

def call (C : Crypto) (k : Call) (p : Party) : Party :=
  match k with
  | .packet now packet => p.receivePacket C now packet
  | .close now reason => p.closeSession C now reason
  | .pumpReliable now => (p.pumpReliable C now).2
  | .housekeep now => (p.runHousekeeping C now).2
  | .send options type payload now => (p.send C options type payload now).2
  | .sendPayload data => (p.sendPayload C data).2
  | .flush now i socket => (p.flushAt now i socket).2

/-- A call runs session code or visits the packet queue. -/
theorem call_cases {C : Crypto} (p : Party) (k : Call) :
    p.Ran C (p.call C k) ∨ ∃ now i socket, p.call C k = (p.flushAt now i socket).2 := by
  cases k with
  | packet now packet =>
    exact Or.inl (.steps (receivePacket_steps now packet p fun _ _ _ => Or.inl (by simp)))
  | close now reason => exact Or.inl (.steps (closeSession_steps now reason p))
  | pumpReliable now => exact Or.inl (.steps (pumpReliable_steps now p))
  | housekeep now => exact Or.inl (.steps (runHousekeeping_steps now p))
  | send options type payload now =>
    obtain ⟨sent, hsent, -⟩ := send_spec (C := C) options type payload now p
    exact Or.inl (.sends hsent)
  | sendPayload data => exact Or.inl (.steps (sendPayload_steps data p))
  | flush now i socket => exact Or.inr ⟨now, i, socket, rfl⟩

theorem call_follows {C : Crypto} {p : Party} (hside : ∃ config, p.side = .server config)
    (k : Call) : p.Follows (p.call C k) := by
  rcases call_cases (C := C) p k with hran | ⟨now, i, socket, heq⟩
  · cases hran with
    | steps h => exact h.follows hside
    | sends h => exact h.follows
  · rw [heq]
    exact flushAt_follows now i socket p

end Party

namespace Server

variable (C : Crypto) (N : InetNtop)

/-- The calls an act may make on the session stored under an id. -/
inductive Act.Calls : Act → UInt64 → Party.Call → Prop
  | packet {source : Endpoint} {datagram : Bytes} {now : UInt64} {draws : Draws}
      {packet : PacketView} (hp : parsePacket datagram = .ok packet)
      (hkind : packet.h.kind ≠ PacketKind.handshake.code) :
      Calls (.receive source datagram now draws) packet.h.connId (.packet now packet)
  /-- A faulty handshake packet ends the session its header names. -/
  | faulty {source : Endpoint} {datagram : Bytes} {now : UInt64} {draws : Draws}
      {packet : PacketView} (hp : parsePacket datagram = .ok packet)
      (hkind : packet.h.kind = PacketKind.handshake.code) (reason : CloseReason) :
      Calls (.receive source datagram now draws) packet.h.connId (.close now reason)
  | visit (now : UInt64) (i : ℕ) (socket socket' : SocketResult) (connId : UInt64) :
      Calls (.visit now i socket) connId (.flush now i socket')
  | pumpReliable (connId now : UInt64) : Calls (.pumpReliable connId now) connId (.pumpReliable now)
  | housekeep (connId now : UInt64) : Calls (.housekeep connId now) connId (.housekeep now)
  | send (endpoint : Endpoint) (connId : UInt64) (options : SendOptions) (type : UInt8)
      (payload : Bytes) (now : UInt64) :
      Calls (.send endpoint connId options type payload now) connId (.send options type payload now)
  | sendPayload (endpoint : Endpoint) (connId : UInt64) (data : Bytes) :
      Calls (.sendPayload endpoint connId data) connId (.sendPayload data)
  | closePeer (endpoint : Endpoint) (connId now : UInt64) (reason : CloseReason) :
      Calls (.closePeer endpoint connId now reason) connId (.close now reason)

/-- The act brings a hello with a good token to the caps. -/
def Act.Reaches (a : Act) (source : Endpoint) (now : UInt64) (srv : Server) : Prop :=
  ∃ hello resumed, a.Hello source hello now ∧ srv.Admits C N source hello now resumed ∧
    (srv.endpointIsBanned source now).1 = false ∧ (srv.endpointRateLimited source now).1 = false

/-- Why an act drops a session. -/
inductive Drops (a : Act) (srv : Server) (ps : PeerSession) : Prop
  | stale (now : UInt64)
      (ha : a = .evictStale now ∨ ∃ source, a.Reaches C N source now srv)
      (h : isStale srv.config now ps.session = true)
  | replaced (now : UInt64) (ha : a.Reaches C N ps.session.endpoint now srv)
      (hroom : srv.full ps.session.endpoint now = false)
  | cleared (ha : a = .stop ∨ ∃ setup secret, a = .listen setup secret)

/-- The party is the stored session as session code sees it, up to the packet queue. -/
structure Sees (srv : Server) (connId : UInt64) (ps : PeerSession) (p : Party) : Prop where
  side : p.side = .server srv.config
  session : p.session = ps.session
  otherMemory : p.otherMemory = srv.otherMemory connId

/-- What an act does to the session stored under an id. -/
inductive Fate (a : Act) (connId : UInt64) (srv srv' : Server) : Prop
  | kept (h : srv'.sessions.lookup connId = srv.sessions.lookup connId)
  | called (ps : PeerSession) (p : Party) (k : Party.Call)
      (hps : srv.sessions.lookup connId = some ps) (hcall : a.Calls connId k)
      (hp : srv.Sees connId ps p)
      (hps' : srv'.sessions.lookup connId = some { ps with session := (p.call C k).session })
  | dropped (ps : PeerSession) (hps : srv.sessions.lookup connId = some ps)
      (hwhy : srv.Drops C N a ps) (hgone : srv'.sessions.lookup connId = none)
  | admitted (srv₁ : Server) (source : Endpoint) (hello : ClientHello) (resumed : Bool)
      (now : UInt64) (draws : Draws) (keys : SessionKeys)
      (hwhy : ∀ ps, srv.sessions.lookup connId = some ps → srv.Drops C N a ps)
      (ha : a.Reaches C N source now srv) (hconfig : srv₁.config = srv.config)
      (hid : (srv₁.admission C source hello resumed now draws keys).peer.session.connId = connId)
      (hps' : srv'.sessions.lookup connId =
        some (srv₁.admission C source hello resumed now draws keys).peer)

variable {C N} {a : Act} {srv srv' srv₁ : Server} {connId now connId' : UInt64} {ps : PeerSession}
  {p : Party} {source : Endpoint} {packet : PacketView}

theorem sees_party (srv : Server) (connId : UInt64) (ps : PeerSession) :
    srv.Sees connId ps (srv.party connId ps) := ⟨rfl, rfl, rfl⟩

theorem SameTable.party_sees (h : srv.SameTable srv₁) (connId : UInt64) (ps : PeerSession) :
    srv.Sees connId ps (srv₁.party connId ps) := by
  refine ⟨?_, rfl, ?_⟩
  · exact congrArg Side.server h.rules.config
  · change srv₁.otherMemory connId = _
    unfold otherMemory
    rw [h.sessions]

theorem SameTable.sees (h : srv.SameTable srv₁) (hp : srv₁.Sees connId ps p) :
    srv.Sees connId ps p := by
  refine ⟨hp.side.trans (congrArg Side.server h.rules.config), hp.session, ?_⟩
  rw [hp.otherMemory]
  unfold otherMemory
  rw [h.sessions]

theorem SameTable.fate (h : srv.SameTable srv') (connId : UInt64) :
    Fate C N a connId srv srv' :=
  .kept (h.lookup_eq connId)

theorem Fate.congr {srv₂ : Server} (h : Fate C N a connId srv srv')
    (hs : srv₂.sessions.lookup connId = srv'.sessions.lookup connId) :
    Fate C N a connId srv srv₂ := by
  cases h with
  | kept h => exact .kept (hs.trans h)
  | called ps p k hps hcall hp hps' => exact .called ps p k hps hcall hp (hs.trans hps')
  | dropped ps hps hwhy hgone => exact .dropped ps hps hwhy (hs.trans hgone)
  | admitted srv₁ source hello resumed now draws keys hwhy ha hconfig hid hps' =>
    exact .admitted srv₁ source hello resumed now draws keys hwhy ha hconfig hid (hs.trans hps')

/-! ### Evictions -/

theorem lookup_foldl_evictSession_mem {l : List UInt64} (h : connId ∈ l) (srv : Server) :
    (l.foldl (fun srv connId => srv.evictSession connId) srv).sessions.lookup connId = none := by
  induction l generalizing srv with
  | nil => cases h
  | cons connId' l ih =>
    by_cases hmem : connId ∈ l
    · exact ih hmem _
    · have heq : connId = connId' := (List.mem_cons.mp h).resolve_right hmem
      rw [List.foldl_cons, lookup_foldl_evictSession hmem, heq]
      exact lookup_evictSession_self connId' srv

theorem lookup_evictStaleSessions_stale (hps : srv.sessions.lookup connId = some ps)
    (hstale : isStale srv.config now ps.session = true) :
    (srv.evictStaleSessions now).sessions.lookup connId = none := by
  refine lookup_foldl_evictSession_mem ?_ srv
  have hentry : (⟨connId, ps⟩ : (_ : UInt64) × PeerSession) ∈ srv.sessions.entries :=
    AList.mem_lookup_iff.mp hps
  exact List.mem_map.mpr ⟨⟨connId, ps⟩, List.mem_filter.mpr ⟨hentry, hstale⟩, rfl⟩

theorem fate_evictStale (now : UInt64) (connId : UInt64) (srv : Server)
    (ha : a = .evictStale now ∨ ∃ source, a.Reaches C N source now srv) :
    Fate C N a connId srv (srv.evictStaleSessions now) := by
  cases hps : srv.sessions.lookup connId with
  | none =>
    exact .kept (((evictStaleSessions_evicts now srv).lookup_none hps).trans hps.symm)
  | some ps =>
    cases hstale : isStale srv.config now ps.session with
    | true => exact .dropped ps hps (.stale now ha hstale) (lookup_evictStaleSessions_stale hps hstale)
    | false => exact .kept (by rw [lookup_evictStaleSessions hps hstale, hps])

/-- After a hello has made room, a session is there as before, or it was stale or replaced. -/
theorem Indexed.lookup_evicted_cases (hidx : srv.Indexed) (source : Endpoint) (now : UInt64)
    (hps : srv.sessions.lookup connId = some ps) :
    ((srv.evictStaleSessions now).evictEndpoint source).sessions.lookup connId = some ps ∨
      ((srv.evictStaleSessions now).evictEndpoint source).sessions.lookup connId = none ∧
        (isStale srv.config now ps.session = true ∨ ps.session.endpoint = source) := by
  cases hstale : isStale srv.config now ps.session with
  | true =>
    exact Or.inr ⟨(evictEndpoint_evicts ..).lookup_none (lookup_evictStaleSessions_stale hps hstale),
      Or.inl rfl⟩
  | false =>
    have hstay := lookup_evictStaleSessions hps hstale
    by_cases hsource : ps.session.endpoint = source
    · subst hsource
      exact Or.inr ⟨(hidx.evictStale now).lookup_evictEndpoint_eq hstay, Or.inr rfl⟩
    · exact Or.inl ((hidx.evictStale now).lookup_evictEndpoint_ne hstay hsource)

/-! ### A hello -/

/-- What is left for a hello with room: the sessions that were not stale or replaced. -/
theorem Indexed.fate_evicted (hidx : srv.Indexed) (ha : a.Reaches C N source now srv)
    (hroom : srv.full source now = false) (connId : UInt64) :
    Fate C N a connId srv ((srv.evictStaleSessions now).evictEndpoint source) := by
  cases hps : srv.sessions.lookup connId with
  | none =>
    have hevict := (evictStaleSessions_evicts now srv).trans (evictEndpoint_evicts source _)
    exact .kept ((hevict.lookup_none hps).trans hps.symm)
  | some ps =>
    rcases hidx.lookup_evicted_cases source now hps with hstay | ⟨hgone, hstale | rfl⟩
    · exact .kept (hstay.trans hps.symm)
    · exact .dropped ps hps (.stale now (Or.inr ⟨source, ha⟩) hstale) hgone
    · exact .dropped ps hps (.replaced now ha hroom) hgone

theorem Fate.drops_of_none (h : Fate C N a connId srv srv')
    (hnone : srv'.sessions.lookup connId = none) :
    ∀ ps, srv.sessions.lookup connId = some ps → srv.Drops C N a ps := by
  intro ps hps
  cases h with
  | kept h =>
    rw [hnone, hps] at h
    cases h
  | called ps' p k hps' hcall hp h =>
    rw [hnone] at h
    cases h
  | dropped ps' hps' hwhy hgone =>
    rw [hps] at hps'
    cases hps'
    exact hwhy
  | admitted srv₁ source hello resumed now draws keys hwhy ha hconfig hid h => exact hwhy ps hps

theorem Indexed.fate_hello (hidx : srv.Indexed) {srv₀ : Server} (hsame₀ : srv.SameTable srv₀)
    (hstate : srv₀.abuseStateFor source = srv.abuseStateFor source) {hello : ClientHello}
    {draws : Draws} {r : Result Unit × Server} (h : HelloOutcome C N source hello now draws srv₀ r)
    (hhello : a.Hello source hello now) (connId : UInt64) : Fate C N a connId srv r.2 := by
  rcases h.table with ⟨hsame, -⟩ | ⟨resumed, srv₁, hpass, hadm, hstale, hcap⟩
  · exact (hsame₀.trans hsame).fate connId
  have hpass := hpass.congr hstate.symm hsame₀.rules.config.symm
  have ha : a.Reaches C N source now srv :=
    ⟨hello, resumed, hhello, hadm.sameRules hsame₀.rules.symm, hpass.banned, hpass.limited⟩
  have hevict := (hsame₀.evictStale now).trans hstale
  rcases hcap with ⟨-, -, hsame⟩ | ⟨hfull, hroom, h⟩
  · exact (fate_evictStale now connId srv (Or.inr ⟨source, ha⟩)).congr
      ((hevict.trans hsame).lookup_eq connId)
  · have hbase : Fate C N a connId srv (srv₁.evictEndpoint source) :=
      (hidx.fate_evicted ha ((full_congr source now hsame₀).symm.trans hfull) connId).congr
        ((hevict.evictEndpoint source).lookup_eq connId)
    have hconfig : (srv₁.evictEndpoint source).config = srv.config :=
      (evictEndpoint_evicts source srv₁).rules.config.trans
        (hevict.rules.config.trans (evictStaleSessions_evicts now srv).rules.config)
    have hfree : connId = (srv₁.evictEndpoint source).allocateConnId draws.connIds →
        (srv₁.evictEndpoint source).sessions.lookup connId = none := by
      rintro rfl
      exact (usable_eq_true.mp (hroom.usable source draws.connIds)).2
    rcases h.lookup connId with heq | ⟨hid, hnone | ⟨-, a, ⟨keys, -, rfl⟩, hnew⟩⟩
    · exact hbase.congr heq
    · exact hbase.congr (hnone.trans (hfree hid).symm)
    · exact .admitted _ source hello resumed now draws keys (hbase.drops_of_none (hfree hid)) ha
        hconfig ((admission_connId ..).trans hid.symm) hnew

/-! ### A packet -/

theorem otherMemory_store (connId : UInt64) (ps : PeerSession) (p : Party) (srv : Server) :
    (srv.store connId ps p).otherMemory connId = srv.otherMemory connId := by
  have herase : ((srv.store connId ps p).sessions.erase connId).entries =
      (srv.sessions.erase connId).entries := List.kerase_cons_eq rfl
  unfold otherMemory
  rw [herase]

theorem party_store (ps : PeerSession) (hside : p.side = .server srv.config)
    (hmem : p.otherMemory = srv.otherMemory connId) :
    (srv.store connId ps p).party connId { ps with session := p.session } = p := by
  have hm := (otherMemory_store connId ps p srv).trans hmem.symm
  obtain ⟨side, session, net, other⟩ := p
  unfold party
  rw [hm]
  exact congrArg (Party.mk · session net other) hside.symm

theorem handleSessionPacket_sees (h : srv.Sees connId ps p) (now : UInt64) (packet : PacketView) :
    (p.handleSessionPacket C now packet).2.side = .server srv.config ∧
      (p.handleSessionPacket C now packet).2.otherMemory = srv.otherMemory connId := by
  have hsteps := Party.handleSessionPacket_steps (C := C) (A := fun _ _ => True) now packet p h.side
    fun _ _ _ => Or.inl (by simp)
  have hfollows := hsteps.follows ⟨srv.config, h.side⟩
  exact ⟨hfollows.side.trans h.side, hfollows.otherMemory.trans h.otherMemory⟩

/-- Handling a packet and its error chain together are `Party.receivePacket`. -/
theorem lookup_sessionPacket_error {q : Party} {e : Failure} (hid : connId ≠ 0)
    (hsees : srv.Sees connId ps p) (hr : p.handleSessionPacket C now packet = (.error e, q))
    (source : Endpoint) :
    ((srv.store connId ps q).errorChain C source connId now e).sessions.lookup connId =
      some { ps with session := (p.receivePacket C now packet).session } := by
  have hview := handleSessionPacket_sees (C := C) hsees now packet
  rw [hr] at hview
  have hchain : Party.chainReason q.side e.code =
      Party.chainReason (.server (srv.store connId ps q).config) e.code := by
    rw [hview.1]
    rfl
  unfold Party.receivePacket
  simp only [hsees.side, hr, hchain]
  cases hreason : Party.chainReason (.server (srv.store connId ps q).config) e.code with
  | none =>
    have hnone : (srv.store connId ps q).errorChain C source connId now e =
        srv.store connId ps q := by
      unfold errorChain
      rw [hreason]
    rw [hnone]
    exact AList.lookup_insert _
  | some reason =>
    have hnotes := noteInvalidPacket_notes source now (srv.store connId ps q)
    have hnote := hnotes.sameTable
    have hlook : ((srv.store connId ps q).noteInvalidPacket source now).sessions.lookup connId =
        some { ps with session := q.session } := by
      rw [hnote.sessions]
      exact AList.lookup_insert _
    have hparty : ((srv.store connId ps q).noteInvalidPacket source now).party connId
        { ps with session := q.session } = q := by
      refine Eq.trans ?_ (party_store ps hview.1 hview.2)
      unfold party otherMemory
      rw [hnote.sessions, hnote.rules.config, hnotes.net]
    rw [errorChain_eq hreason hid]
    unfold closeSession Party.violation
    rw [hlook, hview.1]
    dsimp only
    rw [hparty]
    exact AList.lookup_insert _

theorem receivePacket_of_ok {q : Party} {config : ServerConfig} (hside : p.side = .server config)
    (hr : p.handleSessionPacket C now packet = (.ok (), q)) : p.receivePacket C now packet = q := by
  unfold Party.receivePacket
  simp only [hside, hr]

theorem fate_store (hsame : srv.SameTable srv₁) (hps : srv₁.sessions.lookup connId' = some ps)
    {k : Party.Call} (hcall : a.Calls connId' k) (hp : (srv₁.party connId' ps).call C k = p)
    (connId : UInt64) : Fate C N a connId srv (srv₁.store connId' ps p) := by
  by_cases hid : connId = connId'
  · subst hid
    exact .called ps _ k (hsame.sessions ▸ hps) hcall (hsame.party_sees connId ps)
      (hp ▸ AList.lookup_insert _)
  · exact (hsame.fate connId).congr (lookup_store_ne hid ps p srv₁)

theorem RunsOn.fate {f : Party → Result Unit × Party} (h : srv₁.RunsOn connId' f srv')
    (hsame : srv.SameTable srv₁) {k : Party.Call} (hcall : a.Calls connId' k)
    (hf : ∀ p : Party, p.side = .server srv₁.config → p.call C k = (f p).2) (connId : UInt64) :
    Fate C N a connId srv srv' := by
  rcases h with rfl | ⟨ps, hps, rfl⟩
  · exact hsame.fate connId
  · exact fate_store hsame hps hcall (hf _ rfl) connId

/-- A failed packet closes the session its header names. -/
theorem fate_errorChain (hsame : srv.SameTable srv₁) (source : Endpoint) (now : UInt64)
    (e : Failure) (hcall : ∀ reason, a.Calls connId' (.close now reason)) (connId : UInt64) :
    Fate C N a connId srv (srv₁.errorChain C source connId' now e) := by
  have hnote := hsame.trans (noteInvalidPacket_notes source now srv₁).sameTable
  have h := errorChain_outcome (C := C) source connId' now e srv₁
  generalize srv₁.errorChain C source connId' now e = srv₂ at h
  cases h with
  | ignored => exact hsame.fate connId
  | noted => exact hnote.fate connId
  | closed reason =>
    exact (closeSession_runsOn ..).fate hnote (hcall reason) (fun _ _ => rfl) connId

/-- The session a packet is handed to that is no handshake packet. -/
def addressed (source : Endpoint) (packet : PacketView) (now : UInt64) (srv : Server) :
    Option PeerSession :=
  if (srv.endpointIsBanned source now).1 ∨ packet.h.connId = 0 then none
  else (srv.sessions.lookup packet.h.connId).filter fun ps => ps.session.endpoint = source

/-- Such a packet is received by the session it is handed to, or leaves the table alone. -/
theorem Indexed.lookup_handlePacket (hidx : srv.Indexed) (source : Endpoint) (now : UInt64)
    (hkind : packet.h.kind ≠ PacketKind.handshake.code) (draws : Draws) (connId : UInt64) :
    (∃ ps p, connId = packet.h.connId ∧ srv.addressed source packet now = some ps ∧
        srv.sessions.lookup connId = some ps ∧ srv.Sees connId ps p ∧
        (srv.handlePacket C N source packet now draws).sessions.lookup connId =
          some { ps with session := (p.receivePacket C now packet).session }) ∨
      (connId = packet.h.connId → srv.addressed source packet now = none) ∧
        (srv.handlePacket C N source packet now draws).sessions.lookup connId =
          srv.sessions.lookup connId := by
  unfold addressed
  rcases handlePacket_outcome (C := C) (N := N) source packet now draws srv with
    ⟨hbanned, heq⟩ | ⟨hbanned, h⟩
  · exact Or.inr ⟨fun _ => if_pos (Or.inl hbanned), heq ▸ rfl⟩
  have hban := (past_notes source packet now srv).sameTable
  generalize srv.handlePacket C N source packet now draws = srv' at h
  rw [hbanned]
  generalize srv.past source packet now = srv₁ at h hban
  have hother : ∀ ps q, connId ≠ packet.h.connId →
      (srv₁.store packet.h.connId ps q).sessions.lookup connId = srv.sessions.lookup connId :=
    fun ps q hk => (lookup_store_ne hk ps q srv₁).trans (hban.lookup_eq connId)
  cases h with
  | faulty e hk | greeted hello hk | unwelcome hello e hk => exact absurd hk hkind
  | nameless e _ hid =>
    exact Or.inr ⟨fun _ => if_pos (Or.inr hid),
      (hban.trans (errorChain_sameTable (hidx.sameTable hban).lookup_zero e)).lookup_eq connId⟩
  | unknown _ hid hother =>
    refine Or.inr ⟨fun _ => ?_, (hban.trans (queuePlainClose_replies ..).sameTable).lookup_eq connId⟩
    rw [hban.sessions] at hother
    simpa [hid, Option.filter_eq_none_iff] using hother
  | taken ps q _ hid hps hsource hq =>
    by_cases hk : connId = packet.h.connId
    · subst hk
      refine Or.inl ⟨ps, _, rfl, ?_, hban.sessions ▸ hps, hban.party_sees _ ps, ?_⟩
      · simp [hid, ← hban.sessions, hps, hsource]
      · rw [receivePacket_of_ok rfl hq]
        exact AList.lookup_insert _
    · exact Or.inr ⟨fun heq => absurd heq hk, hother ps q hk⟩
  | failed ps q e _ hid hps hsource hq =>
    by_cases hk : connId = packet.h.connId
    · subst hk
      refine Or.inl ⟨ps, _, rfl, ?_, hban.sessions ▸ hps, hban.party_sees _ ps, ?_⟩
      · simp [hid, ← hban.sessions, hps, hsource]
      · exact lookup_sessionPacket_error hid (sees_party srv₁ _ ps) hq source
    · exact Or.inr ⟨fun heq => absurd heq hk,
        (lookup_errorChain_ne source now hk e _).trans (hother ps q hk)⟩

theorem Indexed.fate_handlePacket (hidx : srv.Indexed) {srv₀ : Server} (hsame₀ : srv.SameTable srv₀)
    (hstate : srv₀.abuseStateFor source = srv.abuseStateFor source) {datagram : Bytes}
    {draws : Draws} (hp : parsePacket datagram = .ok packet) (connId : UInt64) :
    Fate C N (.receive source datagram now draws) connId srv
      (srv₀.handlePacket C N source packet now draws) := by
  by_cases hkind : packet.h.kind = PacketKind.handshake.code
  · have hban := hsame₀.trans (past_notes source packet now srv₀).sameTable
    have hstate := (abuseStateFor_past source packet now srv₀).trans hstate
    rcases handlePacket_outcome (C := C) (N := N) source packet now draws srv₀ with
      ⟨-, heq⟩ | ⟨-, h⟩
    · rw [heq]
      exact (hsame₀.trans (endpointIsBanned_notes ..).sameTable).fate connId
    generalize srv₀.handlePacket C N source packet now draws = srv' at h
    cases h with
    | faulty e => exact fate_errorChain hban source now e (.faulty hp hkind) connId
    | greeted hello _ hread h =>
      exact hidx.fate_hello hban hstate h ⟨datagram, draws, packet, rfl, hp, hkind, hread⟩ connId
    | unwelcome hello e _ hread h =>
      have hafter := (hidx.sameTable hban).steps (h.steps trivial (H := fun _ _ _ => True))
      exact (hidx.fate_hello hban hstate h ⟨datagram, draws, packet, rfl, hp, hkind, hread⟩
        connId).congr ((errorChain_sameTable hafter.lookup_zero e).lookup_eq connId)
    | nameless e hother | unknown hother | taken ps q hother | failed ps q e hother =>
      exact absurd hkind hother
  · rcases (hidx.sameTable hsame₀).lookup_handlePacket (C := C) (N := N) source now hkind draws
      connId with
      ⟨ps, p, rfl, -, hps, hsees, hlook⟩ | ⟨-, hlook⟩
    · exact .called ps p (.packet now packet) (hsame₀.sessions ▸ hps) (.packet hp hkind)
        (hsame₀.sees hsees) hlook
    · exact .kept (hlook.trans (hsame₀.lookup_eq connId))

theorem Indexed.fate_receive (hidx : srv.Indexed) (source : Endpoint) (datagram : Bytes)
    (now : UInt64) (draws : Draws) (connId : UInt64) :
    Fate C N (.receive source datagram now draws) connId srv
      (srv.receive C N source datagram now draws) := by
  have hnote := notePreauthReceive_sameTable source datagram.length now srv
  have h := receive_outcome (C := C) (N := N) source datagram now draws srv
  generalize srv.receive C N source datagram now draws = srv' at h
  cases h with
  | outdated e => exact (hnote.trans (queuePlainClose_replies ..).sameTable).fate connId
  | garbled e => exact (hnote.trans (noteInvalidPacket_notes ..).sameTable).fate connId
  | known packet hp => exact hidx.fate_handlePacket (.refl srv) rfl hp connId
  | counted packet hp => exact hidx.fate_handlePacket hnote rfl hp connId

/-! ### Every act -/

/-- Expiring the tables of hosts concerns neither the sessions nor the queue. -/
theorem expireTables_keeps (now : UInt64) (srv : Server) :
    (srv.expireTables now).sessions = srv.sessions ∧
      (srv.expireTables now).config = srv.config ∧
      (srv.expireTables now).net.pending = srv.net.pending := by
  have hforget : ∀ (l : List Host) (srv : Server),
      (l.foldl (fun srv host => srv.forgetHost host) srv).sessions = srv.sessions ∧
        (l.foldl (fun srv host => srv.forgetHost host) srv).config = srv.config ∧
        (l.foldl (fun srv host => srv.forgetHost host) srv).net.pending = srv.net.pending := by
    intro l
    induction l with
    | nil => exact fun srv => ⟨rfl, rfl, rfl⟩
    | cons host l ih => exact fun srv => ih (srv.forgetHost host)
  exact hforget _ srv

theorem Visited.fate {i : ℕ} {pkt : PendingPacket} {socket : SocketResult}
    (h : srv.Visited now i pkt srv') (connId : UInt64) :
    Fate C N (.visit now i socket) connId srv srv' := by
  cases h with
  | refused => exact .kept rfl
  | sent howner => exact .kept rfl
  | dropped howner hnone => exact .kept rfl
  | left ps p socket' bytes howner hps hflush =>
    have hstore := fate_store (C := C) (N := N) (a := .visit now i socket) (.refl srv) hps
      (.visit now i socket socket' _) (congrArg Prod.snd hflush) connId
    exact hstore.congr rfl
  | stayed ps p socket' howner hps hflush =>
    exact fate_store (.refl srv) hps (.visit now i socket socket' _) (congrArg Prod.snd hflush) connId

theorem fate_cleared (ha : a = .stop ∨ ∃ setup secret, a = .listen setup secret)
    (hgone : srv'.sessions.lookup connId = none) : Fate C N a connId srv srv' := by
  cases hps : srv.sessions.lookup connId with
  | none => exact .kept (hgone.trans hps.symm)
  | some ps => exact .dropped ps hps (.cleared ha) hgone

/-- What an act does to the session under an id. -/
theorem Indexed.fate (hidx : srv.Indexed) (a : Act) (connId : UInt64) :
    Fate C N a connId srv (srv.act C N a) := by
  cases a with
  | receive source datagram now draws => exact hidx.fate_receive source datagram now draws connId
  | visit now i socket =>
    unfold act
    cases hpkt : srv.net.pending[i]? with
    | none =>
      simp only [hpkt]
      exact .kept rfl
    | some pkt =>
      simp only [hpkt]
      exact (visitPacket_visited now i pkt socket srv).fate connId
  | pumpReliable connId' now =>
    exact (onStored_runsOn ..).fate (.refl srv) (.pumpReliable connId' now) (fun _ _ => rfl) connId
  | housekeep connId' now =>
    exact (onStored_runsOn ..).fate (.refl srv) (.housekeep connId' now) (fun _ _ => rfl) connId
  | expireTables now => exact .kept (by rw [act, (expireTables_keeps _ _).1])
  | evictStale now => exact fate_evictStale now connId srv (Or.inl rfl)
  | send endpoint connId' options type payload now =>
    exact (onPeer_runsOn ..).fate (.refl srv) (.send endpoint connId' options type payload now)
      (fun _ _ => rfl) connId
  | sendPayload endpoint connId' data =>
    exact (onPeer_runsOn ..).fate (.refl srv) (.sendPayload endpoint connId' data)
      (fun _ _ => rfl) connId
  | closePeer endpoint connId' now reason =>
    refine (onPeer_runsOn ..).fate (.refl srv) (.closePeer endpoint connId' now reason) ?_ connId
    intro p hp
    unfold Party.close Party.call
    rw [hp]
  | listen setup secret =>
    unfold act listen
    cases validateServerConfig srv.config with
    | error e => exact .kept rfl
    | ok u => cases setup <;> exact fate_cleared (Or.inr ⟨_, _, rfl⟩) rfl
  | stop => exact fate_cleared (Or.inl rfl) rfl

/-! ### Runs -/

theorem acts_config (l : List Act) (srv : Server) : (srv.acts C N l).config = srv.config := by
  induction l generalizing srv with
  | nil => rfl
  | cons a l ih => exact (ih (srv.act C N a)).trans (act_steps a srv).config_eq

theorem indexed_acts (config : ServerConfig) (l : List Act) :
    (({ config } : Server).acts C N l).Indexed :=
  (indexed_of_no_sessions rfl rfl).acts l

/-- What holds of every new session and is kept by every call holds of every stored session. -/
theorem lookup_acts_induction {config : ServerConfig} {P : PeerSession → Prop}
    (hnew : ∀ (srv : Server) (source : Endpoint) (hello : ClientHello) (resumed : Bool)
      (now : UInt64) (draws : Draws) (keys : SessionKeys), srv.config = config →
      P (srv.admission C source hello resumed now draws keys).peer)
    (hcall : ∀ (p : Party) (ps : PeerSession) (k : Party.Call), p.side = .server config →
      p.session = ps.session → P ps → P { ps with session := (p.call C k).session })
    (l : List Act) {connId : UInt64} {ps : PeerSession}
    (hps : (({ config } : Server).acts C N l).sessions.lookup connId = some ps) : P ps := by
  induction l using List.reverseRecOn generalizing ps with
  | nil => cases hps
  | append_singleton l a ih =>
    rw [acts_append, acts_cons, acts_nil] at hps
    have hidx : (({ config } : Server).acts C N l).Indexed := indexed_acts config l
    have hconfig : (({ config } : Server).acts C N l).config = config := acts_config l _
    generalize ({ config } : Server).acts C N l = srv at hps ih hidx hconfig
    cases hidx.fate (C := C) (N := N) a connId with
    | kept h => exact ih (h ▸ hps)
    | called ps₀ p k hps₀ _ hp hps' =>
      obtain rfl := Option.some.inj (hps.symm.trans hps')
      exact hcall p ps₀ k (hp.side.trans (by rw [hconfig])) hp.session (ih hps₀)
    | dropped ps₀ _ _ hgone => cases hps.symm.trans hgone
    | admitted srv₁ source hello resumed now draws keys _ _ hconf _ hps' =>
      obtain rfl := Option.some.inj (hps.symm.trans hps')
      exact hnew srv₁ source hello resumed now draws keys (hconf.trans hconfig)

end Server

end SecureCnet
