import SecureCnet.Server.Lifecycle
import SecureCnet.Session.Silent
import SecureCnet.Session.Violations

/-!
# What the application hears of a session

`on_peer_connected` and `on_peer_disconnected` stand for the states `Established` and
`Closed`. A session should leave the table through `Closed`, so that each client that
was announced is signed off, and nothing should be delivered for it afterwards. Both
fail: evictions do not look at whether a session was signed off, and a closed session
handles packets until it is evicted.
-/

namespace SecureCnet

namespace Session

def Announced (s : Session) : Prop := 0 < s.entered .established

theorem Lived.entered_closed_iff {s : Session} (h : s.Lived) :
    s.entered .closed = 1 ↔ s.state = .closed :=
  h.path.countP_closed_iff (by decide)

end Session

namespace Server

variable {C : Crypto} {N : InetNtop} {a : Act} {srv srv' : Server} {connId now : UInt64}
  {ps : PeerSession}

/-- No session under the id goes on with the history of the given one. -/
def Gone (srv' : Server) (connId : UInt64) (ps : PeerSession) : Prop :=
  ∀ ps', srv'.sessions.lookup connId = some ps' → ¬ps.session.trace <+: ps'.session.trace

theorem gone_of_none (h : srv'.sessions.lookup connId = none) : srv'.Gone connId ps := by
  intro ps' hps'
  rw [h] at hps'
  cases hps'

theorem gone_of_admission {srv₁ : Server} {source : Endpoint} {hello : ClientHello} {resumed : Bool}
    {draws : Draws} {keys : SessionKeys} (hann : ps.session.Announced) (h : srv'.sessions.lookup
      connId = some (srv₁.admission C source hello resumed now draws keys).peer) :
    srv'.Gone connId ps := by
  intro ps' hps' hpre
  obtain rfl := Option.some.inj (h.symm.trans hps')
  rw [admission_trace] at hpre
  have hle : ps.session.entered .established ≤ 0 :=
    (hpre.sublist.filterMap Event.transition).countP_le
  exact absurd hann (not_lt.mpr hle)

/-- A session is gone after an act only if there is a reason to drop it. -/
theorem Indexed.drops_of_gone (hidx : srv.Indexed) (hps : srv.sessions.lookup connId = some ps)
    (hgone : (srv.act C N a).Gone connId ps) : srv.Drops C N a ps := by
  cases hidx.fate (C := C) (N := N) a connId with
  | kept h => exact absurd (List.prefix_refl _) (hgone ps (h.trans hps))
  | called ps₀ p k hps₀ hcall hp hps' =>
    obtain rfl := Option.some.inj (hps₀.symm.trans hps)
    have hfollows := p.call_follows (C := C) ⟨srv.config, hp.side⟩ k
    exact absurd (hp.session ▸ hfollows.trace) (hgone _ hps')
  | dropped ps₀ hps₀ hwhy _ =>
    obtain rfl := Option.some.inj (hps₀.symm.trans hps)
    exact hwhy
  | admitted srv₁ source hello resumed now draws keys hwhy _ _ _ _ => exact hwhy ps hps

/-- A hello with a good token removes stale sessions and, with room, the one of its endpoint. -/
theorem Indexed.gone_of_reaches (hidx : srv.Indexed) (hps : srv.sessions.lookup connId = some ps)
    (hann : ps.session.Announced) {source : Endpoint} (ha : a.Reaches C N source now srv) (hwhy :
      isStale srv.config now ps.session = true ∨ ps.session.endpoint = source ∧ srv.full source now
      = false) : (srv.act C N a).Gone connId ps := by
  obtain ⟨hello, resumed, ⟨datagram, draws, packet, rfl, hp, hkind, hread⟩, hadm, hban, hlim⟩ := ha
  obtain ⟨srv₀, r, hsame₀, hstate, hout, hsame⟩ :=
    hidx.receive_hello (C := C) (N := N) ⟨packet, hp, hkind, hread⟩ now draws
  unfold act Gone
  rw [hsame.sessions]
  rcases hout.table with ⟨-, ⟨hnot, -⟩ | hnot⟩ | ⟨resumed', srv₁, -, -, hstale, hcap⟩
  · exact absurd (Passes.congr ⟨hban, hlim⟩ hstate hsame₀.rules.config) hnot
  · exact absurd (hadm.sameRules hsame₀.rules) (hnot resumed)
  have hevict := (hsame₀.evictStale now).trans hstale
  rcases hcap with ⟨hfull, -, hsame'⟩ | ⟨-, -, h⟩
  · have hgone := lookup_evictStaleSessions_stale hps (hwhy.resolve_right fun h =>
      absurd (((full_congr source now hsame₀).symm.trans hfull).symm.trans h.2) (by decide))
    exact gone_of_none (((hevict.trans hsame').lookup_eq connId).trans hgone)
  · have hgone : (srv₁.evictEndpoint source).sessions.lookup connId = none := by
      rcases hwhy with hstale | ⟨rfl, -⟩
      · exact (evictEndpoint_evicts ..).lookup_none
          ((hevict.lookup_eq connId).trans (lookup_evictStaleSessions_stale hps hstale))
      · exact (hidx.evicted hps hevict).1
    rcases h.lookup connId with heq | ⟨-, hnone | ⟨-, a, ⟨keys, -, rfl⟩, hnew⟩⟩
    · exact gone_of_none (heq.trans hgone)
    · exact gone_of_none hnone
    · exact gone_of_admission hann hnew

/-- What there is a reason to drop is gone. -/
theorem Indexed.gone_of_drops (hidx : srv.Indexed) (hps : srv.sessions.lookup connId = some ps)
    (hann : ps.session.Announced) (hstop : a ≠ .stop)
    (hlisten : ∀ setup secret, a ≠ .listen setup secret) (h : srv.Drops C N a ps) :
    (srv.act C N a).Gone connId ps := by
  cases h with
  | stale now ha hstale =>
    rcases ha with rfl | ⟨source, ha⟩
    · exact gone_of_none (lookup_evictStaleSessions_stale hps hstale)
    · exact hidx.gone_of_reaches hps hann ha (Or.inl hstale)
  | replaced now ha hroom => exact hidx.gone_of_reaches hps hann ha (Or.inr ⟨rfl, hroom⟩)
  | cleared ha =>
    rcases ha with rfl | ⟨setup, secret, rfl⟩
    · exact absurd rfl hstop
    · exact absurd rfl (hlisten setup secret)

/-- No eviction of the act finds an announced session that is not closed: neither one that has
just drained, nor one that the hello is to replace. -/
structure Act.Orderly (C : Crypto) (N : InetNtop) (a : Act) (srv : Server) : Prop where
  drained : ∀ now, (a = .evictStale now ∨ ∃ source, a.Reaches C N source now srv) →
    ∀ connId ps, srv.sessions.lookup connId = some ps → ps.session.Announced →
      ps.session.state = .closing → isStale srv.config now ps.session = false
  replaced : ∀ source now, a.Reaches C N source now srv → srv.full source now = false →
    ∀ connId ps, srv.sessions.lookup connId = some ps → ps.session.Announced →
      ps.session.endpoint = source → ps.session.state = .closed

theorem isStale_cases {config : ServerConfig} {s : Session} (h : isStale config now s = true) :
    s.state = .closed ∨ s.state = .closing := by
  unfold isStale at h
  simp only [Bool.or_eq_true, Bool.and_eq_true, decide_eq_true_eq] at h
  exact h.imp id fun h => h.1.1

/-- In every run of a server that is not being stopped or started, an act removes announced
sessions only after they were signed off exactly when its evictions find them closed. -/
theorem removed_signed_off_iff (config : ServerConfig) (l : List Act) (a : Act) (hstop : a ≠ .stop)
    (hlisten : ∀ setup secret, a ≠ .listen setup secret) :
    (∀ connId ps, (({ config } : Server).acts C N l).sessions.lookup connId = some ps →
        ps.session.Announced → (({ config } : Server).acts C N (l ++ [a])).Gone connId ps →
        ps.session.entered .closed = 1) ↔
      a.Orderly C N (({ config } : Server).acts C N l) := by
  rw [acts_append, acts_cons, acts_nil]
  have hidx : (({ config } : Server).acts C N l).Indexed := indexed_acts config l
  have hlived : ∀ {connId ps}, (({ config } : Server).acts C N l).sessions.lookup connId =
    some ps → ps.session.Lived := lived_acts config l
  generalize ({ config } : Server).acts C N l = srv at hidx hlived
  constructor
  · intro hall
    have hclosed : ∀ connId ps, srv.sessions.lookup connId = some ps → ps.session.Announced →
        srv.Drops C N a ps → ps.session.state = .closed := by
      intro connId ps hps hann hdrops
      have hgone := hidx.gone_of_drops hps hann hstop hlisten hdrops
      exact (hlived hps).entered_closed_iff.mp (hall connId ps hps hann hgone)
    refine ⟨?_, ?_⟩
    · intro now ha connId ps hps hann hclosing
      by_contra hstale
      have hdone := hclosed connId ps hps hann (.stale now ha (by simpa using hstale))
      rw [hclosing] at hdone
      cases hdone
    · rintro source now ha hroom connId ps hps hann rfl
      exact hclosed connId ps hps hann (.replaced now ha hroom)
  · intro hord connId ps hps hann hgone
    rw [(hlived hps).entered_closed_iff]
    cases hidx.drops_of_gone hps hgone with
    | stale now ha hstale =>
      rcases isStale_cases hstale with hclosed | hclosing
      · exact hclosed
      · rw [hord.drained now ha connId ps hps hann hclosing] at hstale
        cases hstale
    | replaced now ha hroom => exact hord.replaced _ now ha hroom connId ps hps hann rfl
    | cleared ha =>
      rcases ha with rfl | ⟨setup, secret, rfl⟩
      · exact absurd rfl hstop
      · exact absurd rfl (hlisten setup secret)

theorem eq_of_keys_singleton {id : UInt64} {only : PeerSession} (hkeys : srv.sessions.keys = [id])
    (honly : srv.sessions.lookup id = some only) (hps : srv.sessions.lookup connId = some ps) :
    ps = only := by
  have hmem : connId ∈ srv.sessions.keys :=
    AList.mem_keys.mp (AList.lookup_isSome.mp (by rw [hps]; rfl))
  rw [hkeys, List.mem_singleton] at hmem
  rw [hmem] at hps
  exact Option.some.inj (hps.symm.trans honly)

/-- `greetedServer` once the client of session 7 is announced. -/
def announced : List Act :=
  greeted ++ [.receive loopback (sessionDatagram .keepalive 1 []) 1205 {}]

def announcedServer : Server := ({} : Server).acts .checksum .standard announced

/-- The client says hello again: its session is replaced, and nobody is told. -/
theorem replaced_unannounced :
    validateServerConfig announcedServer.config = .ok () ∧
      (announcedServer.sessions.lookup 7).map (fun ps => (ps.session.entered .established,
        ps.session.entered .closed)) = some (1, 0) ∧
      (announcedServer.act .checksum .standard (.receive loopback (helloDatagram returningHello)
        1210 { connIds := [8] })).sessions.keys = [8] := by
  decide +kernel

/-- Both sides close the session. -/
def signedOff : List Act :=
  announced ++ [.closePeer loopback 7 1206 .normal,
    .receive loopback (sessionDatagram .close 2
      (((writeCloseFrame ⟨8, []⟩ .normal).toOption.map ByteWriter.out).getD [])) 1207 {}]

def signedOffServer : Server := ({} : Server).acts .checksum .standard signedOff

def signedOffSession : PeerSession := (signedOffServer.sessions.lookup 7).get (by decide +kernel)

/-- The session they closed is removed after it was signed off. -/
theorem removed_signed_off_evicted :
    (signedOffServer.act .checksum .standard (.evictStale 1208)).Gone 7 signedOffSession ∧
      signedOffSession.session.entered .closed = 1 := by
  have hps : signedOffServer.sessions.lookup 7 = some signedOffSession := (Option.some_get _).symm
  have hkeys : signedOffServer.sessions.keys = [7] := by decide +kernel
  have hstate : signedOffSession.session.state = .closed := by decide +kernel
  have hann : signedOffSession.session.Announced := by
    unfold Session.Announced
    decide +kernel
  have hord : (Act.evictStale 1208).Orderly .checksum .standard signedOffServer := by
    refine ⟨?_, ?_⟩
    · intro now _ connId ps hl _ hclosing
      rw [eq_of_keys_singleton hkeys hps hl, hstate] at hclosing
      cases hclosing
    · rintro source now ⟨hello, resumed, ⟨datagram, draws, packet, ha, -⟩, -⟩
      cases ha
  have hgone : (signedOffServer.act .checksum .standard (.evictStale 1208)).Gone 7
      signedOffSession := by
    refine gone_of_none (lookup_evictStaleSessions_stale hps ?_)
    unfold isStale
    rw [hstate]
    rfl
  refine ⟨hgone, (removed_signed_off_iff {} signedOff (.evictStale 1208) (by simp) (by simp)).mpr
    hord 7 signedOffSession hps hann ?_⟩
  rw [acts_append, acts_cons, acts_nil]
  exact hgone

/-! ### How long a session stays -/

/-- The session is still stored: the same connection, no earlier in its life. -/
def Stays (srv srv' : Server) (connId : UInt64) (ps : PeerSession) : Prop :=
  ∃ ps', srv'.sessions.lookup connId = some ps' ∧ ps'.peerId = ps.peerId ∧
    (srv.party connId ps).Continues (srv'.party connId ps')

theorem Indexed.stays_or_drops (hidx : srv.Indexed) (hps : srv.sessions.lookup connId = some ps)
    (a : Act) : srv.Stays (srv.act C N a) connId ps ∨ srv.Drops C N a ps := by
  have hside : Side.server (srv.act C N a).config = .server srv.config :=
    congrArg _ (act_steps a srv).config_eq
  cases hidx.fate (C := C) (N := N) a connId with
  | kept h => exact Or.inl ⟨ps, h.trans hps, rfl, hside, rfl, rfl, rfl, le_rfl⟩
  | called ps₀ p k hps₀ _ hp hps' =>
    obtain rfl := Option.some.inj (hps.symm.trans hps₀)
    have hcont : p.Continues (p.call C k) := by
      rcases p.call_cases (C := C) k with hran | ⟨now, i, socket, heq⟩
      · exact hran.continues ⟨srv.config, hp.side⟩
      · exact heq ▸ Party.flushAt_continues rfl
    obtain ⟨-, hend, hconn, hkeys, hrank⟩ := hcont
    rw [hp.session] at hend hconn hkeys hrank
    exact Or.inl ⟨_, hps', rfl, hside, hend, hconn, hkeys, hrank⟩
  | dropped ps₀ hps₀ hwhy _ =>
    obtain rfl := Option.some.inj (hps.symm.trans hps₀)
    exact Or.inr hwhy
  | admitted _ _ _ _ _ _ _ hwhy => exact Or.inr (hwhy ps hps)

variable (C N) in
/-- An act of the run stops the server or starts it again, finds the session closing or closed, or
lets its endpoint back in with a good token. -/
def Ended (srv : Server) (connId : UInt64) (ps : PeerSession) (l : List Act) : Prop :=
  ∃ l₁ a l₂ ps₁, l = l₁ ++ a :: l₂ ∧ (srv.acts C N l₁).sessions.lookup connId = some ps₁ ∧
    ps₁.session.endpoint = ps.session.endpoint ∧
    (a = .stop ∨ (∃ setup secret, a = .listen setup secret) ∨
      ps₁.session.state = .closed ∨ ps₁.session.state = .closing ∨
      ∃ now, a.Reaches C N ps.session.endpoint now (srv.acts C N l₁))

/-- However a run goes on, a stored session is stored at its end, unless it was over on the way. -/
theorem stored_until_over (hidx : srv.Indexed) (hps : srv.sessions.lookup connId = some ps)
    (l : List Act) : srv.Stays (srv.acts C N l) connId ps ∨ srv.Ended C N connId ps l := by
  induction l using List.reverseRecOn with
  | nil => exact Or.inl ⟨ps, hps, rfl, .refl _⟩
  | append_singleton l a ih =>
    rcases ih with ⟨ps₁, hps₁, hpeer, hcont⟩ | ⟨l₁, b, l₂, ps₁, rfl, hrest⟩
    · rcases (hidx.acts l).stays_or_drops hps₁ a with ⟨ps₂, hps₂, hpeer₂, hcont₂⟩ | hdrops
      · rw [acts_append, acts_cons, acts_nil]
        exact Or.inl ⟨ps₂, hps₂, hpeer₂.trans hpeer, hcont.trans hcont₂⟩
      · have hend : ps₁.session.endpoint = ps.session.endpoint := hcont.endpoint
        refine Or.inr ⟨l, a, [], ps₁, rfl, hps₁, hend, ?_⟩
        cases hdrops with
        | stale now _ hstale =>
          exact Or.inr (Or.inr ((isStale_cases hstale).imp id Or.inl))
        | replaced now ha _ => exact Or.inr (Or.inr (Or.inr (Or.inr ⟨now, hend ▸ ha⟩)))
        | cleared ha => exact ha.imp id Or.inl
    · exact Or.inr ⟨l₁, b, l₂ ++ [a], ps₁, by simp, hrest⟩

/-- The application closes session 7. -/
theorem stored_until_over_closing :
    greetedServer.Stays (greetedServer.acts .checksum .standard
        [.closePeer loopback 7 1206 .normal]) 7 greetedSession ∨
      greetedServer.Ended .checksum .standard 7 greetedSession
        [.closePeer loopback 7 1206 .normal] :=
  stored_until_over (indexed_acts {} greeted) (Option.some_get _).symm _

end Server

/-! ### Messages of closed sessions -/

namespace Session

variable {s s' : Session}

/-- Nothing is delivered after the session was signed off. -/
def SilentAfterClose (s : Session) : Prop :=
  ∀ before after previous, s.trace = before ++ .stateChanged previous .closed :: after →
    ∀ msg, Event.emitted msg ∉ after

theorem Lived.silentAfterClose (h : s.Lived) (hopen : s.state ≠ .closed) : s.SilentAfterClose := by
  intro before after previous ht
  exfalso
  have hmem : (previous, ConnectionState.closed) ∈ s.transitions := by
    rw [transitions, ht]
    simp [Event.transition]
  have hpos : 0 < s.entered .closed := List.countP_pos_iff.mpr ⟨_, hmem, by simp⟩
  have hone := le_antisymm (h.path.countP_le_one .closed) hpos
  exact hopen (h.entered_closed_iff.mp hone)

theorem SilentAfterClose.append (h : s.SilentAfterClose) (ht : s.trace <+: s'.trace)
    (hr : s'.receipts = s.receipts) : s'.SilentAfterClose := by
  obtain ⟨es, hes⟩ := ht
  have hquiet : ∀ msg, Event.emitted msg ∉ es := by
    intro msg hmem
    have hnil : es.filter Event.isReceipt = [] := by
      rw [receipts, receipts, ← hes, List.filter_append] at hr
      exact List.self_eq_append_right.mp hr.symm
    have hin : Event.emitted msg ∈ es.filter Event.isReceipt := List.mem_filter.mpr ⟨hmem, rfl⟩
    rw [hnil] at hin
    cases hin
  intro before after previous hsplit msg hmem
  rw [← hes, List.append_eq_append_iff] at hsplit
  rcases hsplit with ⟨mid, -, hright⟩ | ⟨mid, hleft, hright⟩
  · -- The session is signed off in the new part.
    have hsub : Event.emitted msg ∈ es := by
      rw [hright]
      exact List.mem_append_right _ (List.mem_cons_of_mem _ hmem)
    exact hquiet msg hsub
  · cases mid with
    | nil =>
      have hsub : Event.emitted msg ∈ es := by
        rw [List.nil_append] at hright
        rw [← hright]
        exact List.mem_cons_of_mem _ hmem
      exact hquiet msg hsub
    | cons e mid =>
      obtain ⟨rfl, rfl⟩ := List.cons.inj hright
      rcases List.mem_append.mp hmem with hold | hnew
      · exact h before mid previous hleft msg hold
      · exact hquiet msg hnew

end Session

namespace Party

variable {C : Crypto} {p p' : Party} {packet : PacketView} {now : UInt64}

/-- Frames do not sign an open session off. -/
theorem dispatchFrames_ne_closed (config : ServerConfig) (hside : p.side = .server config)
    (hopen : p.session.state ≠ .closed) (fuel : ℕ) (r : Bytes) :
    (p.dispatchFrames C now fuel r).session.state ≠ .closed := by
  induction fuel generalizing r p with
  | zero => exact hopen
  | succ fuel ih =>
    unfold dispatchFrames
    cases readMessage r with
    | error e =>
      dsimp only
      split_ifs
      · exact hopen
      · exact (violation_handled hside now _).ne_closed hopen
    | ok mr =>
      obtain ⟨msg, r⟩ := mr
      have hhandled := dispatchMessageFrame_handled (C := C) hside now msg
      have hstays := hhandled.ne_closed hopen
      dsimp only
      rw [if_neg hstays]
      exact ih (hhandled.side_eq.trans hside) hstays r

/-- A message packet does not sign an open session off. -/
theorem receivePacket_ne_closed {config : ServerConfig} (hside : p.side = .server config)
    (hopen : p.session.state ≠ .closed) (hkind : packet.h.kind = PacketKind.message.code) :
    (p.receivePacket C now packet).session.state ≠ .closed := by
  have hend : ∀ {r q}, ChainOutcome C now r q → r.2.side = .server config →
      r.2.session.state ≠ .closed → q.session.state ≠ .closed := by
    intro r q hchain hr ho
    cases hchain with
    | done | ignored => exact ho
    | violated => exact (violation_handled hr now _).ne_closed ho
  have hsteps := handleSessionPacket_steps (C := C) (A := fun _ _ => True) now packet p hside
    fun _ _ _ => Or.inl (by simp)
  refine hend (receivePacket_server hside now packet) (hsteps.side_eq.trans hside) ?_
  unfold handleSessionPacket
  split_ifs
  · exact hopen
  · exact hopen
  · exact hopen
  · rcases authenticate_cases (C := C) now packet p with
      ⟨plaintext, htakes, hauth⟩ | ⟨-, e, w, -, hauth⟩
    · rw [hauth]
      simp only [hkind, PacketKind.ofCode_code]
      refine dispatchFrames_ne_closed config ?_ ?_ _ _
      · exact (showPacket_side ..).trans hside
      · rw [showPacket_state]
        split_ifs
        · decide
        · exact hopen
    · rw [hauth]
      exact hopen

/-- What a call delivers comes from a message packet, which does not sign the session off. -/
theorem call_receipts {config : ServerConfig} (hside : p.side = .server config) (k : Call) :
    (p.call C k).session.receipts = p.session.receipts ∨
      ∃ now packet plaintext, k = .packet now packet ∧
        packet.h.kind = PacketKind.message.code ∧ p.Accepts C packet plaintext ∧
        (p.session.state ≠ .closed → (p.call C k).session.state ≠ .closed) := by
  cases k with
  | packet now packet =>
    by_cases hmsg : packet.h.kind = PacketKind.message.code ∧
      ∃ plaintext, p.Accepts C packet plaintext
    · obtain ⟨hkind, plaintext, htakes⟩ := hmsg
      exact Or.inr ⟨now, packet, plaintext, rfl, hkind, htakes,
        fun hopen => receivePacket_ne_closed hside hopen hkind⟩
    · refine Or.inl (receivePacket_silent (Option.eq_none_iff_forall_not_mem.mpr
        fun plaintext hd => ?_)).receipts_eq
      obtain ⟨hkind, -, -, -, htakes⟩ := dispatches_eq_some.mp hd
      exact hmsg ⟨hkind, plaintext, htakes⟩
  | close now reason => exact Or.inl (closeSession_silent now reason ⟨config, hside⟩).receipts_eq
  | pumpReliable now => exact Or.inl (pumpReliable_silent now p).receipts_eq
  | housekeep now => exact Or.inl (runHousekeeping_silent now p).receipts_eq
  | send options type payload now =>
    obtain ⟨sent, hsent, -⟩ := send_spec (C := C) options type payload now p
    exact Or.inl hsent.silent.receipts_eq
  | sendPayload data => exact Or.inl (sendPayload_silent data p).receipts_eq
  | flush now i socket => exact Or.inl (flushAt_silent now i socket p).receipts_eq

end Party

namespace Server

variable {C : Crypto} {N : InetNtop}

/-- The act is a message packet for a closed session, which takes it. -/
def Act.LateMessage (C : Crypto) (a : Act) (srv : Server) : Prop :=
  ∃ source datagram now draws packet plaintext ps, a = .receive source datagram now draws ∧
    parsePacket datagram = .ok packet ∧ packet.h.kind = PacketKind.message.code ∧
    srv.sessions.lookup packet.h.connId = some ps ∧ ps.session.state = .closed ∧
    (srv.party packet.h.connId ps).Accepts C packet plaintext

/-- The act is a message packet of any session. -/
def Act.isMessage : Act → Bool
  | .receive _ datagram _ _ =>
    match parsePacket datagram with
    | .ok packet => packet.h.kind = PacketKind.message.code
    | .error _ => false
  | _ => false

theorem Act.LateMessage.isMessage {a : Act} {srv : Server} (h : a.LateMessage C srv) :
    a.isMessage = true := by
  obtain ⟨source, datagram, now, draws, packet, plaintext, ps, rfl, hparse, hkind, -⟩ := h
  simp only [Act.isMessage, hparse, hkind, decide_true]

/-- In every run without such packets nothing is delivered for a session after it was signed
off. -/
theorem silent_after_close (config : ServerConfig) (l : List Act)
    (hlate : ∀ before a after, l = before ++ a :: after →
      ¬a.LateMessage C (({ config } : Server).acts C N before))
    {connId : UInt64} {ps : PeerSession}
    (hps : (({ config } : Server).acts C N l).sessions.lookup connId = some ps) :
    ps.session.SilentAfterClose := by
  induction l using List.reverseRecOn generalizing ps with
  | nil => cases hps
  | append_singleton l a ih =>
    have hlived := lived_acts config (l ++ [a]) hps
    have hbefore := hlate l a [] rfl
    have hearlier : ∀ before a' after, l = before ++ a' :: after →
        ¬a'.LateMessage C (({ config } : Server).acts C N before) :=
      fun before a' after h => hlate before a' (after ++ [a]) (by rw [h]; simp)
    replace ih : ∀ {ps}, (({ config } : Server).acts C N l).sessions.lookup connId = some ps →
        ps.session.SilentAfterClose := ih hearlier
    rw [acts_append, acts_cons, acts_nil] at hps
    have hidx : (({ config } : Server).acts C N l).Indexed := indexed_acts config l
    generalize ({ config } : Server).acts C N l = srv at hps ih hidx hbefore
    cases hidx.fate (C := C) (N := N) a connId with
    | kept h => exact ih (h ▸ hps)
    | dropped ps₀ _ _ hgone => cases hps.symm.trans hgone
    | admitted srv₁ source hello resumed now draws keys _ _ _ _ hnew =>
      obtain rfl := Option.some.inj (hps.symm.trans hnew)
      exact hlived.silentAfterClose (by
        rw [show (srv₁.admission C source hello resumed now draws keys).peer.session.state =
          .handshaking from Session.transitionState_state _ _]
        decide)
    | called ps₀ p k hps₀ hcall hp hnew =>
      obtain rfl := Option.some.inj (hps.symm.trans hnew)
      have hfollows := p.call_follows (C := C) ⟨srv.config, hp.side⟩ k
      rcases p.call_receipts (C := C) hp.side k with
        hsame | ⟨now, packet, plaintext, rfl, hkind, htakes, hopen⟩
      · exact (hp.session.symm ▸ ih hps₀ : p.session.SilentAfterClose).append hfollows.trace hsame
      · cases hcall with
        | packet hparse _ =>
          refine hlived.silentAfterClose (hopen fun hclosed => hbefore ?_)
          exact ⟨_, _, now, _, packet, plaintext, ps₀, rfl, hparse, hkind, hps₀,
            hp.session ▸ hclosed, htakes.congr hp.session.symm⟩

/-- A keepalive reaches the session both sides closed. -/
def keptUp : List Act :=
  signedOff ++ [.receive loopback (sessionDatagram .keepalive 3 []) 1208 {}]

def keptUpSession : PeerSession :=
  ((({} : Server).acts .checksum .standard keptUp).sessions.lookup 7).get (by decide +kernel)

theorem silent_after_close_signedOff :
    (signedOffSession.session.state = .closed ∧
      (keptUpSession.session.trace.drop signedOffSession.session.trace.length).map Event.isReceipt =
        [false]) ∧
      keptUpSession.session.SilentAfterClose := by
  have hnone : ∀ a ∈ keptUp, a.isMessage = false := by decide +kernel
  refine ⟨by decide +kernel, silent_after_close {} keptUp ?_ (Option.some_get _).symm⟩
  intro before a after hsplit hlate
  have hmem : a ∈ keptUp := by
    rw [hsplit]
    simp
  exact absurd hlate.isMessage (by rw [hnone a hmem]; decide)

/-- The late packet as `_on_packet` is called with it. -/
def lateNotice : PacketView where
  h := { kind := PacketKind.message.code, flags := 1, connId := 7, seq := 3, payloadLen := 7 }
  payload := MsgView.encode ⟨.unreliable, 5, [1, 2, 3]⟩

/-- After both sides have closed the session, a message of the client is still delivered. -/
theorem closed_session_delivers :
    validateServerConfig signedOffServer.config = .ok () ∧
      (signedOffServer.sessions.lookup 7).map (fun ps => (ps.session.state,
        ps.session.trace.getLast?)) = some (.closed, some (.stateChanged .closing .closed)) ∧
      ((signedOffServer.act .checksum .standard (.receive loopback (sessionDatagram .message 3
        (MsgView.encode ⟨.unreliable, 5, [1, 2, 3]⟩)) 1208 {})).sessions.lookup 7).map
          (fun ps => ps.session.trace.drop (signedOffSession.session.trace.length)) =
        some [.onPacket lateNotice, .emitted ⟨.unreliable, 5, [1, 2, 3]⟩] := by
  decide +kernel

end Server

end SecureCnet
