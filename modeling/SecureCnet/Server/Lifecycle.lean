import SecureCnet.Server.Table
import SecureCnet.Session.Dispatch

/-!
# The life of a session

A session goes through its states in one direction. It is established by the first
packet of its client that is authentic, at a moment when it has not accepted any, and
it enters each state at most once, so that its client is announced to the application
once and signed off once.
-/

namespace SecureCnet

namespace ConnectionState

variable {a b : ConnectionState} {ts : List (ConnectionState × ConnectionState)}

theorem eq_handshaking (hidle : a ≠ .idle)
    (h : ¬established.rank ≤ a.rank) : a = .handshaking := by
  cases a <;> first | rfl | exact absurd rfl hidle | exact absurd (by decide) h

theorem Path.rank_le (h : Path a ts b) : a.rank ≤ b.rank := by
  induction h with
  | nil => exact le_rfl
  | cons hlt _ ih => exact hlt.le.trans ih

theorem Path.countP_eq_zero {c : ConnectionState} (h : Path a ts b) (hc : c.rank ≤ a.rank) :
    ts.countP (fun t => t.2 = c) = 0 := by
  induction h with
  | nil => rfl
  | @cons a b _ ts hlt _ ih =>
    have hne : b ≠ c := by
      rintro rfl
      exact absurd hc (not_le.mpr hlt)
    rw [List.countP_cons, ih (hc.trans hlt.le)]
    simp [hne]

theorem Path.countP_le_one (c : ConnectionState) (h : Path a ts b) :
    ts.countP (fun t => t.2 = c) ≤ 1 := by
  induction h with
  | nil => simp
  | @cons a b _ ts _ hp ih =>
    rw [List.countP_cons]
    by_cases hb : b = c
    · subst hb
      rw [hp.countP_eq_zero le_rfl]
      simp
    · simpa [hb] using ih

theorem Path.countP_closed_iff (h : Path a ts b) (ha : a ≠ .closed) :
    ts.countP (fun t => t.2 = .closed) = 1 ↔ b = .closed := by
  induction h with
  | nil => simpa using ha
  | @cons a b c ts _ hp ih =>
    rw [List.countP_cons]
    by_cases hb : b = .closed
    · subst hb
      rw [hp.countP_eq_zero le_rfl]
      have hc : c = .closed := by
        have hle := hp.rank_le
        cases c <;> first | rfl | exact absurd hle (by decide)
      simpa using hc
    · simpa [hb] using ih hb

end ConnectionState

namespace Session

variable {s s' : Session}

/-- How often the session went into a state; `on_peer_connected` is called when it is
`established`, `on_peer_disconnected` when it is `closed`. -/
def entered (state : ConnectionState) (s : Session) : ℕ :=
  s.transitions.countP fun t => t.2 = state

theorem Walks.entered_eq {state : ConnectionState} (h : s.Walks s')
    (hr : state.rank ≤ s.state.rank) : s'.entered state = s.entered state := by
  obtain ⟨ts, ht, hp⟩ := h
  rw [entered, entered, ht, List.countP_append, hp.countP_eq_zero hr, Nat.add_zero]

theorem entered_transitionState {state next : ConnectionState} (h : next ≠ state) (s : Session) :
    (s.transitionState next).entered state = s.entered state := by
  unfold transitionState
  split_ifs
  · rfl
  · unfold entered transitions
    simp [Event.transition, h]

/-- The states so far are a path, and a session that is not established has accepted nothing. -/
structure Lived (s : Session) : Prop where
  path : ConnectionState.Path .idle s.transitions s.state
  started : s.state ≠ .idle
  fresh : s.state = .handshaking → s.packetWindow = {}

end Session

namespace Party

variable {C : Crypto} {p p' : Party} {packet : PacketView} {now : UInt64} {config : ServerConfig}

/-- Nothing happened to a session that is not established, other than that it is closed. -/
structure Waits (p p' : Party) : Prop where
  window : p'.session.packetWindow = p.session.packetWindow
  entered : p'.session.entered .established = p.session.entered .established

theorem Waits.refl (p : Party) : p.Waits p := ⟨rfl, rfl⟩

theorem Waits.trans {p'' : Party} (h : p.Waits p') (h' : p'.Waits p'') : p.Waits p'' :=
  ⟨h'.window.trans h.window, h'.entered.trans h.entered⟩

theorem UpToNumber.waits (h : p.UpToNumber PacketEvent p') : p.Waits p' := by
  obtain ⟨n, es, net, rfl, -, hes⟩ := h
  refine ⟨rfl, ?_⟩
  unfold Session.entered
  rw [Session.transitions_append (fun e he => PacketEvent.transition_eq (hes e he)) rfl]

theorem transitionState_waits {next : ConnectionState} (h : next ≠ .established) (p : Party) :
    p.Waits (p.mapSession (Session.transitionState next)) := by
  refine ⟨?_, Session.entered_transitionState h p.session⟩
  rw [mapSession_session]
  unfold Session.transitionState
  split_ifs <;> rfl

theorem closeSession_waits (now : UInt64) (reason : CloseReason) (p : Party) :
    p.Waits (p.closeSession C now reason) := by
  have hset : p.Waits (p.mapSession fun s => { s with closeReason := reason }) := ⟨rfl, rfl⟩
  unfold closeSession
  dsimp only
  split_ifs
  · exact (hset.trans (queueClosePacket_upToNumber now reason _ _).waits).trans
      (transitionState_waits (by decide) _)
  · exact hset

/-- Apart from packets of its client, no call establishes a session. -/
theorem call_waits (hside : p.side = .server config)
    (hstate : p.session.state.rank ≤ ConnectionState.handshaking.rank) {k : Call}
    (hk : ∀ now packet, k ≠ .packet now packet) : p.Waits (p.call C k) := by
  have hne : p.session.state ≠ .established := by
    intro h
    rw [h] at hstate
    exact absurd hstate (by decide)
  -- Nothing is sent before the session is established.
  have hsame : ∀ q : Party, q = p → p.Waits q := by
    rintro q rfl
    exact .refl q
  cases k with
  | packet now packet => exact absurd rfl (hk now packet)
  | close now reason => exact closeSession_waits now reason p
  | pumpReliable now =>
    refine hsame _ ?_
    unfold call pumpReliable
    simp only [if_pos hne]
  | housekeep now =>
    have hexpire : p.Waits (p.mapSession fun s =>
      { s with reassembler := s.reassembler.expireOld now }) := ⟨rfl, rfl⟩
    unfold call runHousekeeping
    simp only [mapSession_side, hside]
    split_ifs with h1 h2 h3 h4
    · exact hexpire.trans (closeSession_waits now _ _)
    · exact absurd h2.1 hne
    · exact absurd h3.1 hne
    · exact hexpire.trans (transitionState_waits (by decide) _)
    · exact hexpire
  | send options type payload now =>
    refine hsame _ ?_
    unfold call send
    simp only [if_pos hne]
  | sendPayload data =>
    refine hsame _ ?_
    unfold call sendPayload
    simp only [if_pos hne]
  | flush now i socket =>
    obtain ⟨budget, lastSendMs, net, h, -⟩ := flushAt_shape now i socket p
    have hcall : p.call C (.flush now i socket) = _ := h
    rw [hcall]
    exact ⟨rfl, rfl⟩

/-- What a packet does that the session does not take: it is closed at most. -/
theorem receivePacket_refused (hside : p.side = .server config) (now : UInt64)
    (h : ∀ plaintext, ¬p.Accepts C packet plaintext) :
    ∃ w, (w = p.session.packetWindow ∨
        (p.session.packetWindow.accept packet.h.seq).1 = false) ∧
      (p.mapSession fun s => { s with packetWindow := w }).Waits (p.receivePacket C now packet) := by
  have hhandled : ∃ e w, (w = p.session.packetWindow ∨
        (p.session.packetWindow.accept packet.h.seq).1 = false) ∧
      p.handleSessionPacket C now packet =
        (.error e, p.mapSession fun s => { s with packetWindow := w }) := by
    unfold handleSessionPacket
    split_ifs
    · exact ⟨_, _, Or.inl rfl, rfl⟩
    · exact ⟨_, _, Or.inl rfl, rfl⟩
    · exact ⟨_, _, Or.inl rfl, rfl⟩
    · rcases authenticate_cases (C := C) now packet p with
        ⟨plaintext, htakes, -⟩ | ⟨-, e, w, hw, hauth⟩
      · exact absurd htakes (h plaintext)
      · rw [hauth]
        exact ⟨e, w, hw, rfl⟩
  obtain ⟨e, w, hw, heq⟩ := hhandled
  refine ⟨w, hw, ?_⟩
  unfold receivePacket
  simp only [hside, heq, mapSession_side]
  cases chainReason (.server config) e.code with
  | none => exact .refl _
  | some reason =>
    dsimp only
    unfold violation
    rw [mapSession_side, hside]
    exact closeSession_waits now reason _

theorem closeSession_rank (now : UInt64) (reason : CloseReason) (p : Party) :
    ConnectionState.closing.rank ≤ (p.closeSession C now reason).session.state.rank := by
  rw [closeSession_state]
  split_ifs <;> decide

/-- After a packet that the session takes it is established, or past that. -/
theorem receivePacket_taken (hside : p.side = .server config) (hstate : p.session.state ≠ .idle)
    (now : UInt64) {plaintext : Bytes} (h : p.Accepts C packet plaintext) :
    ConnectionState.established.rank ≤ (p.receivePacket C now packet).session.state.rank := by
  have hauth : ∃ plaintext, ∃ q : Party, p.authenticate C now packet = (.ok plaintext, q) ∧
      q.side = p.side ∧ q.session.state = p.session.state := by
    rcases authenticate_cases (C := C) now packet p with ⟨plaintext, -, hauth⟩ | ⟨hnot, -⟩
    · exact ⟨plaintext, _, hauth, rfl, rfl⟩
    · exact absurd h (hnot plaintext)
  obtain ⟨plaintext, q, hauth, hqside, hqstate⟩ := hauth
  -- Any later step keeps the rank, and a fault of the packet closes the session.
  have hend : ∀ {r q}, ChainOutcome C now r q → r.2.side = .server config →
      (ConnectionState.established.rank ≤ r.2.session.state.rank ∨
        ∃ msg, r.1 = fail .protocolError msg) →
      ConnectionState.established.rank ≤ q.session.state.rank := by
    intro r q hchain hr hrank
    cases hchain with
    | done => exact hrank.resolve_right (fun ⟨_, hf⟩ => by cases hf)
    | ignored hreason =>
      refine hrank.resolve_right ?_
      rintro ⟨msg, hf⟩
      cases hf
      rw [show _ = _ from hr] at hreason
      cases hreason
    | @violated e r reason =>
      unfold violation
      rw [show r.side = _ from hr]
      exact (by decide : ConnectionState.established.rank ≤ ConnectionState.closing.rank).trans
        (closeSession_rank now reason r)
  refine hend (receivePacket_server hside now packet) ?_ ?_
  · have hsteps := handleSessionPacket_steps (C := C) (A := fun _ _ => True) now packet p hside
      fun _ _ _ => Or.inl (by simp)
    exact hsteps.side_eq.trans hside
  · unfold handleSessionPacket
    split_ifs
    · exact Or.inr ⟨_, rfl⟩
    · exact Or.inr ⟨_, rfl⟩
    · exact Or.inr ⟨_, rfl⟩
    · rw [hauth]
      dsimp only
      have hopen : ConnectionState.established.rank ≤
          (q.showPacket packet plaintext).session.state.rank := by
        rw [showPacket_state]
        split_ifs with hs
        · exact le_rfl
        · rw [← hqstate] at hstate
          cases hq : q.session.state <;> first | decide | exact absurd hq ‹_›
      have hoside := (showPacket_side packet plaintext q).trans (hqside.trans hside)
      generalize q.showPacket packet plaintext = r at hopen hoside
      cases PacketKind.ofCode packet.h.kind with
      | none => exact Or.inl hopen
      | some kind =>
        cases kind with
        | handshake => exact Or.inl hopen
        | raw => exact Or.inl hopen
        | keepalive => exact Or.inl hopen
        | message =>
          have hallows : Allows (fun _ _ => True) plaintext := Or.inl (by simp)
          have hsteps := dispatchMessagePayload_steps (C := C) hallows now r
          exact Or.inl (hopen.trans (hsteps.continues ⟨config, hoside⟩).rank)
        | close =>
          dsimp only
          cases readCloseFrame plaintext with
          | error e => exact Or.inl hopen
          | ok reason =>
            dsimp only
            split_ifs
            · exact Or.inl ((by decide : ConnectionState.established.rank ≤
                ConnectionState.closing.rank).trans (closeSession_rank now reason r))
            · rw [mapSession_session, Session.transitionState_state]
              exact Or.inl (by decide)

/-- A call does not make a session any younger. -/
theorem call_lived (hside : p.side = .server config) (h : p.session.Lived) (k : Call) :
    (p.call C k).session.Lived := by
  have hfollows := call_follows (C := C) ⟨config, hside⟩ k
  obtain ⟨ts, ht, hp⟩ := hfollows.walks
  refine ⟨?_, ?_, ?_⟩
  · rw [ht]
    exact h.path.append hp
  · intro hidle
    rw [hidle] at hp
    cases hs : p.session.state with
    | idle => exact h.started hs
    | _ => exact absurd hp.rank_le (by rw [hs]; decide)
  · intro hstate
    have hold : p.session.state = .handshaking := by
      refine ConnectionState.eq_handshaking h.started fun hr => ?_
      have hle := hr.trans hp.rank_le
      rw [hstate] at hle
      exact absurd hle (by decide)
    have hwindow := h.fresh hold
    by_cases hk : ∃ now packet, k = .packet now packet
    · obtain ⟨now, packet, rfl⟩ := hk
      by_cases htakes : ∃ plaintext, p.Accepts C packet plaintext
      · obtain ⟨plaintext, htakes⟩ := htakes
        have hrank := receivePacket_taken hside h.started now htakes
        rw [show (p.receivePacket C now packet).session.state = .handshaking from hstate] at hrank
        exact absurd hrank (by decide)
      · obtain ⟨w, hw, hwaits⟩ := receivePacket_refused hside now (not_exists.mp htakes)
        refine hwaits.window.trans ?_
        rcases hw with rfl | hseen
        · exact hwindow
        · -- A window that has seen nothing takes every number.
          rw [hwindow] at hseen
          cases hseen
    · have hnot : ∀ now packet, k ≠ .packet now packet :=
        fun now packet heq => hk ⟨now, packet, heq⟩
      rw [(call_waits hside (hold ▸ le_rfl) hnot).window, hwindow]

/-- A call that establishes a session is the first packet it takes. -/
theorem call_establishes (hside : p.side = .server config) (h : p.session.Lived) {k : Call}
    (hnew : p.session.entered .established < (p.call C k).session.entered .established) :
    ∃ now packet plaintext, k = .packet now packet ∧ p.Accepts C packet plaintext ∧
      p.session.packetWindow = {} := by
  have hfollows := call_follows (C := C) ⟨config, hside⟩ k
  have hold : p.session.state = .handshaking :=
    ConnectionState.eq_handshaking h.started
      fun hr => absurd (hfollows.walks.entered_eq hr) hnew.ne'
  by_cases hk : ∃ now packet, k = .packet now packet
  · obtain ⟨now, packet, rfl⟩ := hk
    by_cases htakes : ∃ plaintext, p.Accepts C packet plaintext
    · obtain ⟨plaintext, htakes⟩ := htakes
      exact ⟨now, packet, plaintext, rfl, htakes, h.fresh hold⟩
    · obtain ⟨w, -, hwaits⟩ := receivePacket_refused hside now (not_exists.mp htakes)
      exact absurd hwaits.entered hnew.ne'
  · have hnot : ∀ now packet, k ≠ .packet now packet :=
      fun now packet heq => hk ⟨now, packet, heq⟩
    exact absurd (call_waits hside (hold ▸ le_rfl) hnot).entered hnew.ne'

end Party

namespace Server

variable {C : Crypto} {N : InetNtop}

theorem admission_trace (source : Endpoint) (hello : ClientHello) (resumed : Bool) (now : UInt64)
    (draws : Draws) (keys : SessionKeys) (srv : Server) :
    (srv.admission C source hello resumed now draws keys).peer.session.trace =
      [.stateChanged .idle .handshaking] := by
  simp [admission, keyedSession, newPeerSession, Session.transitionState, Session.log]

theorem admission_lived (source : Endpoint) (hello : ClientHello) (resumed : Bool) (now : UInt64)
    (draws : Draws) (keys : SessionKeys) (srv : Server) :
    (srv.admission C source hello resumed now draws keys).peer.session.Lived := by
  have hstate : (srv.admission C source hello resumed now draws keys).peer.session.state =
    .handshaking := Session.transitionState_state _ _
  refine ⟨?_, ?_, ?_⟩
  · rw [hstate, Session.transitions, admission_trace]
    exact .cons (by decide) (.nil _)
  · rw [hstate]
    decide
  · exact fun _ => rfl

theorem lived_acts (config : ServerConfig) (l : List Act) {connId : UInt64} {ps : PeerSession}
    (hps : (({ config } : Server).acts C N l).sessions.lookup connId = some ps) :
    ps.session.Lived :=
  lookup_acts_induction (P := fun ps => ps.session.Lived)
    (fun srv source hello resumed now draws keys _ =>
      admission_lived source hello resumed now draws keys srv)
    (fun p _ k hside hsession h => p.call_lived hside (hsession ▸ h) k) l hps

/-- In every run the states of each session form one path, so that its client is announced and
signed off at most once. Each act leaves a session at the same rank or a higher one, or has just
created it. It establishes a session only as the first packet the session ever takes. -/
theorem session_lifecycle (config : ServerConfig) (l : List Act) :
    (∀ connId ps, (({ config } : Server).acts C N l).sessions.lookup connId = some ps →
      ConnectionState.Path .idle ps.session.transitions ps.session.state ∧
        ps.session.entered .established ≤ 1 ∧ ps.session.entered .closed ≤ 1) ∧
    ∀ a connId ps', (({ config } : Server).acts C N (l ++ [a])).sessions.lookup connId = some ps' →
      (ps'.session.state = .handshaking ∧
        ps'.session.trace = [.stateChanged .idle .handshaking]) ∨
      ∃ ps, (({ config } : Server).acts C N l).sessions.lookup connId = some ps ∧
        ps.session.trace <+: ps'.session.trace ∧
        ps.session.state.rank ≤ ps'.session.state.rank ∧
        (ps.session.entered .established < ps'.session.entered .established →
          ∃ source datagram now draws packet plaintext,
            a = .receive source datagram now draws ∧ parsePacket datagram = .ok packet ∧
            packet.h.connId = connId ∧
            ((({ config } : Server).acts C N l).party connId ps).Accepts C packet plaintext ∧
            ps.session.packetWindow = {}) := by
  refine ⟨?_, ?_⟩
  · intro connId ps hps
    have hlived := lived_acts config l hps
    exact ⟨hlived.path, hlived.path.countP_le_one _, hlived.path.countP_le_one _⟩
  · intro a connId ps' hps'
    rw [acts_append, acts_cons, acts_nil] at hps'
    have hidx : (({ config } : Server).acts C N l).Indexed := indexed_acts config l
    have hlived : ∀ {connId ps}, (({ config } : Server).acts C N l).sessions.lookup connId =
      some ps → ps.session.Lived := lived_acts config l
    generalize ({ config } : Server).acts C N l = srv at hps' hidx hlived
    cases hidx.fate (C := C) (N := N) a connId with
    | kept h =>
      refine Or.inr ⟨ps', h ▸ hps', List.prefix_refl _, le_rfl, fun hlt => ?_⟩
      exact absurd hlt (lt_irrefl _)
    | dropped ps _ _ hgone => cases hps'.symm.trans hgone
    | admitted srv₁ source hello resumed now draws keys _ _ _ _ hnew =>
      obtain rfl := Option.some.inj (hps'.symm.trans hnew)
      exact Or.inl ⟨Session.transitionState_state _ _, admission_trace ..⟩
    | called ps p k hps hcall hp hnew =>
      obtain rfl := Option.some.inj (hps'.symm.trans hnew)
      have hfollows := p.call_follows (C := C) ⟨srv.config, hp.side⟩ k
      obtain ⟨ts, -, hpath⟩ := hfollows.walks
      refine Or.inr ⟨ps, hps, hp.session ▸ hfollows.trace, hp.session ▸ hpath.rank_le, ?_⟩
      intro hlt
      rw [← hp.session] at hlt
      obtain ⟨now, packet, plaintext, rfl, htakes, hwindow⟩ :=
        p.call_establishes hp.side (hp.session ▸ hlived hps) hlt
      cases hcall with
      | packet hparse hkind =>
        exact ⟨_, _, now, _, packet, plaintext, rfl, hparse, rfl, htakes.congr hp.session.symm,
          hp.session ▸ hwindow⟩

/-- A datagram the client of session 7 sends. -/
def sessionDatagram (kind : PacketKind) (seq : UInt64) (payload : Bytes) : Bytes :=
  (buildPacket .standIn kind true payload 7 seq (Block.zero 32)).toOption.getD []

/-- The keepalive that establishes the session 7 of `greetedServer` is the first packet it takes. -/
theorem keepalive_establishes :
    ((greetedServer.act .checksum .standard (.receive loopback (sessionDatagram .keepalive 1 [])
        1300 {})).sessions.lookup 7).map (fun ps => ps.session.state) = some .established ∧
      ∃ packet plaintext,
        (greetedServer.party 7 greetedSession).Accepts .checksum packet plaintext := by
  have hps : greetedServer.sessions.lookup 7 = some greetedSession := (Option.some_get _).symm
  have hstate : ((greetedServer.act .checksum .standard (.receive loopback
      (sessionDatagram .keepalive 1 []) 1300 {})).sessions.lookup 7).map
        (fun ps => (ps.session.state, ps.session.entered .established)) =
          some (.established, 1) := by
    decide +kernel
  have hold : greetedSession.session.entered .established = 0 := by decide +kernel
  obtain ⟨ps', hps', hnew⟩ := Option.map_eq_some_iff.mp hstate
  have hcount : ps'.session.entered .established = 1 := congrArg Prod.snd hnew
  have hbefore : ({} : Server).acts .checksum .standard greeted = greetedServer := rfl
  have hafter : ({} : Server).acts .checksum .standard (greeted ++ [.receive loopback
      (sessionDatagram .keepalive 1 []) 1300 {}]) = greetedServer.act .checksum .standard
        (.receive loopback (sessionDatagram .keepalive 1 []) 1300 {}) := by
    rw [acts_append, acts_cons, acts_nil, hbefore]
  have hlife := (session_lifecycle (C := .checksum) (N := .standard) {} greeted).2
    (.receive loopback (sessionDatagram .keepalive 1 []) 1300 {}) 7 ps'
  rw [hbefore, hafter] at hlife
  refine ⟨by rw [hps']; exact congrArg (fun t => some t.1) hnew, ?_⟩
  rcases hlife hps' with ⟨hstart, -⟩ | ⟨ps, hps₀, -, -, htaken⟩
  · rw [hstart] at hnew
    cases hnew
  · have hsame : ps = greetedSession := Option.some.inj (hps₀.symm.trans hps)
    rw [hsame] at htaken
    obtain ⟨-, -, -, -, packet, plaintext, -, -, -, htakes, -⟩ := htaken (by
      rw [hold, hcount]
      decide)
    exact ⟨packet, plaintext, htakes⟩

end Server

end SecureCnet
