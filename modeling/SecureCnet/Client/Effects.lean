import SecureCnet.Client.Outcomes
import SecureCnet.Library.Leads

/-!
# What a client operation can do

The public operations are sequences of acts, and an act other than `connect` and
`stop` is a sequence of elementary changes: the code of an established session runs,
a hello is queued, a retry token or a server hello is taken over, a packet leaves. A
client has no keys before it takes over a server hello.
-/

namespace SecureCnet

namespace Client

variable (C : Crypto)

/-- There are no keys before the handshake is over. -/
def Tame (c : Client) : Prop :=
  c.session.state.rank ≤ ConnectionState.handshaking.rank → c.session.keys = .cleared

/-- The elementary changes of a client; `H` says which server hellos may be taken over. -/
inductive Change (H : ServerHello → SessionKeys → Prop) (c : Client) : Client → Prop
  /-- Session code ran on a connection that was set up, or ended one. -/
  | ran (p : Party) (h : c.party.Ran C p)
      (hrank : ConnectionState.established.rank ≤ c.session.state.rank ∨
        ConnectionState.closing.rank ≤ p.session.state.rank) : Change H c (c.withParty p)
  | visited (now : UInt64) (socket : SocketResult) : Change H c (c.visitHead now socket).2
  /-- Partial messages are given up. -/
  | expired (now : UInt64) : Change H c { c with session := { c.session with
      reassembler := c.session.reassembler.expireOld now } }
  /-- The current hello is queued. -/
  | greeted (hstate : c.session.state = .handshaking) : Change H c
      (c.onParty (Party.queuePacketClient C c.config .handshake false c.currentHello.encode .high)).2
  | retried (token : RetryToken) (hstate : c.session.state = .handshaking) :
      Change H c { c with retryToken := some token }
  /-- A server hello is taken over; a client that cannot answer it ends the connection. -/
  | adopted (hello : ServerHello) (keys : SessionKeys) (now : UInt64) (p : Party)
      (hstate : c.session.state = .handshaking) (hH : H hello keys)
      (h : Party.Steps C (fun _ _ => True) (c.adoptSession keys hello now).party p)
      (hrank : ConnectionState.established.rank ≤ p.session.state.rank) :
      Change H c ((c.adoptSession keys hello now).withParty p)

/-- A sequence of elementary changes. -/
abbrev Steps (H : ServerHello → SessionKeys → Prop) : Client → Client → Prop :=
  Relation.ReflTransGen (Change C H)

variable {C} {H : ServerHello → SessionKeys → Prop} {c c' : Client}

@[simp] theorem withParty_party (c : Client) : c.withParty c.party = c := rfl

@[simp] theorem party_withParty (p : Party) (c : Client) :
    (c.withParty p).party = { c.party with session := p.session, net := p.net } := rfl

@[simp] theorem withParty_session (p : Party) (c : Client) :
    (c.withParty p).session = p.session := rfl

@[simp] theorem withParty_net (p : Party) (c : Client) : (c.withParty p).net = p.net := rfl

theorem rank_le_handshaking_or (s : ConnectionState) :
    s.rank ≤ ConnectionState.handshaking.rank ∨ ConnectionState.established.rank ≤ s.rank := by
  cases s <;> decide

theorem not_le_handshaking {n : ℕ} (h : ConnectionState.established.rank ≤ n) :
    ¬ n ≤ ConnectionState.handshaking.rank := by
  simp only [ConnectionState.rank] at h ⊢
  omega

theorem ne_established_of_rank_le {s : ConnectionState}
    (h : s.rank ≤ ConnectionState.handshaking.rank) : s ≠ .established := by
  rintro rfl
  exact absurd h (by decide)

/-! ### Keys come with the connection -/

theorem visitHead_shape (now : UInt64) (socket : SocketResult) (c : Client) :
    ∃ budget lastSendMs net wire, (c.visitHead now socket).2 = { c with
        session := { c.session with budget, lastSendMs }, net, wire } ∧
      net.sockOpen = c.net.sockOpen ∧ net.pending ⊆ c.net.pending ∧
      ∀ d ∈ wire, d ∈ c.wire ∨ ∃ q ∈ c.net.pending, q.bytes = d := by
  unfold visitHead
  generalize (if c.net.sockOpen = true then socket else SocketResult.failed) = socket
  obtain ⟨budget, lastSendMs, net, hshape, hopen, hsub⟩ :=
    Party.flushAt_shape now 0 socket c.party
  have hleft : ∀ bytes, (c.party.flushAt now 0 socket).1 = some bytes →
      ∃ q ∈ c.net.pending, q.bytes = bytes := by
    intro bytes h
    obtain ⟨q, hq, -, hb⟩ := Party.mem_of_flushAt h
    exact ⟨q, hq, hb⟩
  dsimp only
  cases hf : c.party.flushAt now 0 socket with
  | mk left p =>
    rw [hf] at hshape hleft
    obtain rfl : p = _ := hshape
    cases left with
    | none => exact ⟨budget, lastSendMs, net, c.wire, rfl, hopen, hsub, fun d hd => Or.inl hd⟩
    | some bytes =>
      refine ⟨budget, lastSendMs, net, c.wire ++ [bytes], rfl, hopen, hsub, ?_⟩
      intro d hd
      rcases List.mem_append.mp hd with hold | hnew
      · exact Or.inl hold
      · obtain rfl := List.mem_singleton.mp hnew
        exact Or.inr (hleft d rfl)

/-- Queueing a hello uses up a number and touches the queue. -/
theorem greeted_shape (c : Client) :
    ∃ s net, (c.onParty (Party.queuePacketClient C c.config .handshake false
        c.currentHello.encode .high)).2 = { c with session := s, net } ∧
      (s = c.session ∨ s = c.session.drawPacketNumber) ∧ net.sockOpen = c.net.sockOpen ∧
      ∀ q ∈ net.pending, q ∈ c.net.pending ∨
        plainHandshake q.bytes = some c.currentHello.encode := by
  unfold onParty Party.queuePacketClient
  simp only [Bool.false_and, Bool.false_eq_true, if_false, Bool.not_false, Bool.true_and]
  split_ifs
  · exact ⟨_, _, rfl, Or.inl rfl, rfl, fun q hq => Or.inl hq⟩
  · refine ⟨_, _, rfl, Or.inr rfl, Party.sealAndEnqueue_sockOpen .., ?_⟩
    intro q hq
    refine (Party.mem_sealAndEnqueue hq).imp id fun hb => ?_
    rw [plainHandshake_plain hb]
    rfl

/-- The connection stays as it is; at most packets are queued or leave. -/
structure Quiet (c c' : Client) : Prop where
  config : c'.config = c.config
  received : c'.received = c.received
  wire : c.wire ⊆ c'.wire
  socket : c'.net.sockOpen = c.net.sockOpen
  state : c'.session.state = c.session.state
  connId : c'.session.connId = c.session.connId
  keys : c'.session.keys = c.session.keys
  ephemeral : c'.session.ephemeral = c.session.ephemeral
  packetWindow : c'.session.packetWindow = c.session.packetWindow

theorem visitHead_quiet (now : UInt64) (socket : SocketResult) (c : Client) :
    c.Quiet (c.visitHead now socket).2 := by
  have hwire : c.wire ⊆ (c.visitHead now socket).2.wire := by
    unfold visitHead
    dsimp only
    split
    · exact List.subset_append_left _ _
    · exact List.Subset.refl _
  obtain ⟨budget, lastSendMs, net, wire, hshape, hopen, -⟩ := c.visitHead_shape now socket
  rw [hshape] at hwire ⊢
  exact ⟨rfl, rfl, hwire, hopen, rfl, rfl, rfl, rfl, rfl⟩

theorem Quiet.trans {c'' : Client} (h : c.Quiet c') (h' : c'.Quiet c'') : c.Quiet c'' :=
  ⟨h'.config.trans h.config, h'.received.trans h.received, List.Subset.trans h.wire h'.wire,
    h'.socket.trans h.socket, h'.state.trans h.state, h'.connId.trans h.connId, h'.keys.trans h.keys,
    h'.ephemeral.trans h.ephemeral, h'.packetWindow.trans h.packetWindow⟩

theorem greet_quiet (c : Client) : c.Quiet (c.greet C).2 := by
  obtain ⟨s, net, hshape, rfl | rfl, hopen, -⟩ := greeted_shape (C := C) c
  all_goals
    rw [greet, hshape]
    exact ⟨rfl, rfl, List.Subset.refl _, hopen, rfl, rfl, rfl, rfl, rfl⟩

theorem sendClientHello_quiet (visits : Visits) (c : Client) :
    c.Quiet (c.sendClientHello C visits).2 :=
  sendClientHello_induction (P := fun r => c.Quiet r.2)
    (fun c' now socket _ h => h.trans (visitHead_quiet now socket c')) (greet_quiet c)

/-- What matters of a change to the connection. -/
theorem Change.cases (h : Change C H c c') :
    (∃ p, c' = c.withParty p ∧ c.party.Ran C p ∧
      (ConnectionState.established.rank ≤ c.session.state.rank ∨
        ConnectionState.closing.rank ≤ p.session.state.rank)) ∨
    c.Quiet c' ∨
    ∃ hello keys now p, c' = (c.adoptSession keys hello now).withParty p ∧
      c.session.state = .handshaking ∧ H hello keys ∧
      Party.Steps C (fun _ _ => True) (c.adoptSession keys hello now).party p ∧
      ConnectionState.established.rank ≤ p.session.state.rank := by
  cases h with
  | ran p h hrank => exact Or.inl ⟨p, rfl, h, hrank⟩
  | visited now socket => exact Or.inr (Or.inl (visitHead_quiet now socket c))
  | expired now => exact Or.inr (Or.inl ⟨rfl, rfl, List.Subset.refl _, rfl, rfl, rfl, rfl, rfl, rfl⟩)
  | greeted hstate => exact Or.inr (Or.inl (greet_quiet c))
  | retried token hstate =>
    exact Or.inr (Or.inl ⟨rfl, rfl, List.Subset.refl _, rfl, rfl, rfl, rfl, rfl, rfl⟩)
  | adopted hello keys now p hstate hH h hrank =>
    exact Or.inr (Or.inr ⟨hello, keys, now, p, rfl, hstate, hH, h, hrank⟩)

theorem rank_of_ran {p : Party} (h : c.party.Ran C p)
    (hrank : ConnectionState.established.rank ≤ c.session.state.rank ∨
      ConnectionState.closing.rank ≤ p.session.state.rank) :
    ConnectionState.established.rank ≤ p.session.state.rank :=
  hrank.elim (fun hr => hr.trans h.rank) (le_trans (by decide))

theorem established_of_rank {s s' : ConnectionState} (hs' : s' = .established)
    (hmono : s.rank ≤ s'.rank)
    (hrank : ConnectionState.established.rank ≤ s.rank ∨ ConnectionState.closing.rank ≤ s'.rank) :
    s = .established := by
  subst hs'
  have hhigh := hrank.resolve_right (by decide)
  cases s <;> simp_all [ConnectionState.rank]

theorem Quiet.tame (h : c.Quiet c') (hc : c.Tame) : c'.Tame := by
  rw [Tame, h.state, h.keys]
  exact hc

theorem Change.tame (hc : c.Tame) (h : Change C H c c') : c'.Tame := by
  rcases h.cases with ⟨p, rfl, hran, hrank⟩ | hquiet | ⟨hello, keys, now, p, rfl, -, -, -, hrank⟩
  · exact fun hlow => absurd hlow (not_le_handshaking (rank_of_ran hran hrank))
  · exact hquiet.tame hc
  · exact fun hlow => absurd hlow (not_le_handshaking hrank)

theorem Steps.tame (hc : c.Tame) (h : Steps C H c c') : c'.Tame := by
  induction h with
  | refl => exact hc
  | tail _ hchange ih => exact hchange.tame ih

theorem Change.socket (h : Change C H c c') (hopen : c'.session.state ≠ .closed) :
    c'.net.sockOpen = c.net.sockOpen := by
  rcases h.cases with ⟨p, rfl, hran, -⟩ | hquiet | ⟨hello, keys, now, p, rfl, -, -, h, -⟩
  · exact (hran.lasts hopen).socket
  · exact hquiet.socket
  · exact (h.lasts hopen).socket

theorem Change.closed (h : Change C H c c') (hc : c.session.state = .closed) :
    c'.session.state = .closed := by
  rcases h.cases with ⟨p, rfl, hran, -⟩ | hquiet | ⟨hello, keys, now, p, rfl, hstate, -⟩
  · by_contra hne
    exact Party.ne_closed_of_rank_le hran.rank hne hc
  · exact hquiet.state.trans hc
  · cases hc.symm.trans hstate

theorem Steps.socket (h : Steps C H c c') (hopen : c'.session.state ≠ .closed) :
    c'.net.sockOpen = c.net.sockOpen := by
  induction h with
  | refl => rfl
  | tail _ hchange ih =>
    exact (hchange.socket hopen).trans (ih fun hc => hopen (hchange.closed hc))

/-! ### Acts are sequences of changes -/

theorem failConnection_steps (reason : CloseReason) (c : Client) :
    Steps C H c (c.failConnection reason) := by
  refine .single (.ran _ (.steps (Party.failConnection_steps reason ⟨c.config, rfl⟩)) (Or.inr ?_))
  rw [Party.failConnection_state]
  decide

theorem remoteClose_steps (reason : CloseReason) (c : Client) :
    Steps C H c (c.withParty (c.party.remoteClose reason)) := by
  refine .single (.ran _ (.steps (Party.remoteClose_steps reason ⟨c.config, rfl⟩)) (Or.inr ?_))
  rw [Party.remoteClose_state]
  decide

theorem sendClientHello_steps (visits : Visits) (hstate : c.session.state = .handshaking) :
    Steps C H c (c.sendClientHello C visits).2 :=
  sendClientHello_induction (P := fun r => Steps C H c r.2)
    (fun _ now socket _ h => h.tail (.visited now socket)) (.single (.greeted hstate))

theorem Tame.handleEstablishedPacket (hc : c.Tame)
    (hyoung : c.session.state.rank ≤ ConnectionState.handshaking.rank) (now : UInt64)
    (packet : PacketView) :
    ∃ e, c.party.handleEstablishedPacket C now packet = (.error e, c.party) ∧
      (e.code = .protocolError ∨ e.code = .stateError) := by
  refine Party.handleEstablishedPacket_of_empty ?_ now packet
  change c.session.keys.empty = true
  rw [hc hyoung]
  exact SessionKeys.empty_cleared

section

variable {now : UInt64} {visits : Visits} {packet : PacketView} {hello : ServerHello}
  {keys : SessionKeys} {rc : Result Unit} {p : Party}

theorem keepalive_queued
    (hq : (c.adoptSession keys hello now).party.queueKeepalive C = (rc, p)) :
    Party.Steps C (fun _ _ => True) (c.adoptSession keys hello now).party p ∧
      (c.adoptSession keys hello now).party.SameState p := by
  have hsteps := Party.queueKeepalive_steps (C := C) (A := fun _ _ => True)
    (c.adoptSession keys hello now).party
  have hsame := (Party.queueSecure_queued C .keepalive [] .high
    (c.adoptSession keys hello now).party).sameState
  change Party.SameState _ (Party.queueKeepalive C _).2 at hsame
  rw [hq] at hsteps hsame
  exact ⟨hsteps, hsame⟩

theorem RouteOutcome.steps {r : Result Unit × Client} (h : RouteOutcome C now visits packet c r)
    (hc : c.Tame) (hH : ∀ hello keys, c.Offers C packet hello keys → H hello keys) :
    Steps C H c r.2 := by
  cases h with
  | refused e | rejected hello e | misclosed e => exact .refl
  | retried token hkind hplain hstate =>
    exact (Relation.ReflTransGen.single (.retried token hstate)).trans
      (sendClientHello_steps visits hstate)
  | unanswered hello keys e p hoffers hq =>
    obtain ⟨hsteps, hsame⟩ := keepalive_queued hq
    refine .single (.adopted hello keys now (p.failConnection .internalError) hoffers.2.2.1
      (hH hello keys hoffers)
      (hsteps.trans (Party.failConnection_steps .internalError ⟨c.config, hsame.side⟩)) ?_)
    rw [Party.failConnection_state]
    decide
  | answered hello keys p hoffers hq =>
    obtain ⟨hsteps, hsame⟩ := keepalive_queued hq
    have hest : p.session.state.rank ≤ ConnectionState.established.rank := by
      rw [hsame.state.trans hoffers.2.2.1]
      decide
    refine .single (.adopted hello keys now _ hoffers.2.2.1 (hH hello keys hoffers)
      (hsteps.trans (Party.steps_mapSession (Session.tidy_transitionState hest (by decide)))) ?_)
    rw [Party.mapSession_session, Session.transitionState_state]
  | closed reason => exact remoteClose_steps reason c
  | @secure hkind hclose rc p hp =>
    rcases rank_le_handshaking_or c.session.state with hyoung | hset
    · obtain ⟨e, he, -⟩ := hc.handleEstablishedPacket (C := C) hyoung now packet
      obtain ⟨-, rfl⟩ := Prod.mk.inj (hp.symm.trans he)
      exact .refl
    · have hsteps := Party.handleEstablishedPacket_steps (C := C) (A := fun _ _ => True) now packet
        c.party ⟨c.config, rfl⟩ fun _ _ _ => Or.inl (by simp)
      rw [hp] at hsteps
      exact .single (.ran _ (.steps hsteps) (Or.inl hset))

theorem ChainOutcome.steps {r : Result Unit × Client} {c' : Client} (h : ChainOutcome r c')
    (hr : Steps C H c r.2) : Steps C H c c' := by
  cases h with
  | done | ignored => exact hr
  | failed e c' reason => exact hr.trans (failConnection_steps reason c')

end

theorem receive_steps (hc : c.Tame) (datagram : Bytes) (now : UInt64) (visits : Visits)
    (hH : ∀ packet hello keys, parsePacket datagram = .ok packet → c.Offers C packet hello keys →
      H hello keys) : Steps C H (c.heard datagram) (c.receive C datagram now visits) := by
  have h := receive_outcome (C := C) datagram now visits c
  generalize c.receive C datagram now visits = c' at h
  cases h with
  | garbled e reason => exact failConnection_steps reason _
  | routed hp hroute hchain => exact hchain.steps (hroute.steps hc fun hello keys => hH _ hello keys hp)

theorem onParty_steps {f : Party → Result Unit × Party} (hset :
    ConnectionState.established.rank ≤ c.session.state.rank) (hf : c.party.Ran C (f c.party).2) :
    Steps C H c (c.onParty f).2 :=
  .single (.ran _ hf (Or.inl hset))

/-! Without a connection nothing is sent. -/

theorem pumpReliable_idle (hne : c.session.state ≠ .established) (now : UInt64) :
    (c.onParty (Party.pumpReliable C now)).2 = c := by
  rw [onParty, show c.party.pumpReliable C now = (.ok (), c.party) from if_pos hne]
  rfl

theorem send_idle (hne : c.session.state ≠ .established) (options : SendOptions) (type : UInt8)
    (payload : Bytes) (now : UInt64) :
    (c.onParty (Party.send C options type payload now)).2 = c := by
  rw [onParty, Party.send_of_not_established hne]
  rfl

theorem sendPayload_idle (hne : c.session.state ≠ .established) (data : Bytes) :
    (c.onParty (Party.sendPayload C data)).2 = c := by
  rw [onParty, show c.party.sendPayload C data =
    (fail .stateError (Party.notEstablishedMsg c.party.side), c.party) from if_pos hne]
  rfl

theorem steps_of_idle {f : Party → Result Unit × Party}
    (hidle : c.session.state ≠ .established → (c.onParty f).2 = c)
    (hf : c.party.Ran C (f c.party).2) : Steps C H c (c.onParty f).2 := by
  rcases rank_le_handshaking_or c.session.state with hyoung | hset
  · rw [hidle (ne_established_of_rank_le hyoung)]
  · exact onParty_steps hset hf

theorem pumpReliable_steps (now : UInt64) (c : Client) :
    Steps C H c (c.onParty (Party.pumpReliable C now)).2 :=
  steps_of_idle (fun hne => pumpReliable_idle hne now) (.steps (Party.pumpReliable_steps now _))

theorem send_steps (options : SendOptions) (type : UInt8) (payload : Bytes) (now : UInt64)
    (c : Client) : Steps C H c (c.onParty (Party.send C options type payload now)).2 := by
  obtain ⟨sent, hsent, -⟩ := Party.send_spec (C := C) options type payload now c.party
  exact steps_of_idle (fun hne => send_idle hne options type payload now) (.sends hsent)

theorem sendPayload_steps (data : Bytes) (c : Client) :
    Steps C H c (c.onParty (Party.sendPayload C data)).2 :=
  steps_of_idle (fun hne => sendPayload_idle hne data) (.steps (Party.sendPayload_steps data _))

theorem runHousekeeping_steps (now : UInt64) (c : Client) :
    Steps C H c (c.onParty (Party.runHousekeeping C now)).2 := by
  rcases rank_le_handshaking_or c.session.state with hyoung | hset
  · have hexp : Steps C H c { c with session := { c.session with
        reassembler := c.session.reassembler.expireOld now } } := .single (.expired now)
    have hfail := hexp.trans (failConnection_steps .establishTimeout _)
    have hne := ne_established_of_rank_le hyoung
    have hclosing : c.session.state ≠ .closing := by
      intro h
      rw [h] at hyoung
      exact absurd hyoung (by decide)
    unfold onParty Party.runHousekeeping
    dsimp only [party, Party.mapSession]
    split_ifs with h₁ h₂ h₃ h₄ h₅
    · exact hfail
    · exact hexp
    · exact absurd h₃.1 hne
    · exact absurd h₄.1 hne
    · exact absurd h₅.1 hclosing
    · exact hexp
  · exact onParty_steps hset (.steps (Party.runHousekeeping_steps now _))

theorem close_steps (now : UInt64) (reason : CloseReason) (c : Client) :
    Steps C H c (c.onParty (Party.close C now reason)).2 := by
  have hsteps := Party.close_steps (C := C) (A := fun _ _ => True) now reason c.party
  change Steps C H c (c.withParty (c.party.close C now reason).2)
  rcases Party.close_client (C := C) (p := c.party) rfl now reason with hsame | ⟨hend, -⟩
  · rw [hsame]
    exact .refl
  · exact .single (.ran _ (.steps hsteps) (Or.inr hend))

/-- The server hellos an act may make a client take over. -/
def Act.Offers (C : Crypto) (a : Act) (c : Client) (hello : ServerHello) (keys : SessionKeys) :
    Prop :=
  ∃ datagram now visits packet, a = .receive datagram now visits ∧
    parsePacket datagram = .ok packet ∧ c.Offers C packet hello keys

/-- The datagram of an act is recorded. -/
def noting (a : Act) (c : Client) : Client :=
  match a with
  | .receive datagram _ _ =>
    if c.net.sockOpen then c.heard datagram else c
  | _ => c

theorem noting_eq (a : Act) (c : Client) : c.noting a = { c with received := (c.noting a).received } := by
  cases a with
  | receive datagram now visits =>
    unfold noting
    dsimp only
    split_ifs <;> rfl
  | _ => rfl

/-- The client is taken down. -/
structure Cleared (c c' : Client) : Prop where
  state : c'.session.state = .idle
  keys : c'.session.keys = .cleared
  queue : c'.net.pending = []
  wire : c'.wire = c.wire

/-- A new connection is about to be made. -/
structure Begun (C : Crypto) (c c' : Client) : Prop where
  state : c'.session.state = .handshaking
  keys : c'.session.keys = .cleared
  ephemeral : ∃ seed, c'.session.ephemeral = C.kxKeypair seed
  socket : c'.net.sockOpen = true
  queue : c'.net.pending = []
  wire : c'.wire = c.wire
  received : c'.received = []

theorem stop_cleared (now : UInt64) (c : Client) : c.Cleared (c.stop now) :=
  ⟨Session.transitionState_state .idle _, Session.transitionState_keys .idle _, rfl, rfl⟩

/-- Everything `connect` can do. -/
theorem connect_cases (server : Endpoint) (setup : SocketSetup) (seed : Block 32)
    (nonce : Block 16) (now : UInt64) (visits : Visits) (c : Client) :
    (c.connect C server setup seed nonce now visits).2 = c ∨
      c.Cleared (c.connect C server setup seed nonce now visits).2 ∨
      ∃ c₀, c.Begun C c₀ ∧
        Steps C (fun _ _ => False) c₀ (c.connect C server setup seed nonce now visits).2 := by
  have h := connect_outcome (C := C) server setup seed nonce now visits c
  generalize (c.connect C server setup seed nonce now visits).2 = c' at h
  cases h with
  | refused => exact Or.inl rfl
  | halted h => exact Or.inr (Or.inl ⟨h.state, h.keys, h.pending, h.wire⟩)
  | @begun c₀ h hopen =>
    have hstate := Session.transitionState_state .handshaking
    refine Or.inr (Or.inr ⟨c₀.beginHandshake C seed nonce now, ⟨hstate _, ?_, ⟨seed, ?_⟩, hopen,
      h.pending, h.wire, h.received⟩, sendClientHello_steps visits (hstate _)⟩)
    · exact (Session.transitionState_keys .handshaking _).trans h.keys
    · exact Session.transitionState_ephemeral .handshaking _

def Act.lasting : Act → Bool
  | .connect .. | .stop _ => false
  | _ => true

/-- Such an act is a sequence of elementary changes. -/
theorem act_steps (hc : c.Tame) {a : Act} (ha : a.lasting = true) :
    Steps C (a.Offers C c) (c.noting a) (c.act C a) := by
  cases a with
  | connect server setup seed nonce now visits => cases ha
  | stop now => cases ha
  | visit now socket => exact .single (.visited now socket)
  | pumpReliable now => exact pumpReliable_steps now c
  | receive datagram now visits =>
    unfold act noting
    dsimp only
    split_ifs
    · exact receive_steps hc datagram now visits fun packet hello keys hp ho =>
        ⟨datagram, now, visits, packet, rfl, hp, ho⟩
    · exact .refl
  | housekeep now => exact runHousekeeping_steps now c
  | send options type payload now => exact send_steps options type payload now c
  | sendPayload data => exact sendPayload_steps data c
  | close now reason => exact close_steps now reason c

theorem act_cases (hc : c.Tame) (a : Act) :
    Steps C (a.Offers C c) (c.noting a) (c.act C a) ∨ c.Cleared (c.act C a) ∨
      ∃ c₀, c.Begun C c₀ ∧ Steps C (fun _ _ => False) c₀ (c.act C a) := by
  cases a with
  | connect server setup seed nonce now visits =>
    rcases connect_cases (C := C) server setup seed nonce now visits c with h | h
    · refine Or.inl ?_
      change Steps C _ c (c.connect C server setup seed nonce now visits).2
      rw [h]
    · exact Or.inr h
  | stop now => exact Or.inr (Or.inl (stop_cleared now c))
  | _ => exact Or.inl (act_steps hc rfl)

theorem Cleared.tame (h : c.Cleared c') : c'.Tame := fun _ => h.keys

theorem Begun.tame (h : c.Begun C c') : c'.Tame := fun _ => h.keys

theorem act_tame (hc : c.Tame) (a : Act) : (c.act C a).Tame := by
  rcases act_cases (C := C) hc a with h | h | ⟨c₀, hb, h⟩
  · refine h.tame ?_
    rw [noting_eq]
    exact hc
  · exact h.tame
  · exact h.tame hb.tame

theorem create_tame (config : ClientConfig) (now : UInt64) : (create config now).Tame :=
  fun _ => rfl

/-! ### Operations are sequences of acts -/

@[simp] theorem acts_cons (a : Act) (l : List Act) (c : Client) :
    c.acts C (a :: l) = (c.act C a).acts C l := rfl

theorem acts_append (l l' : List Act) (c : Client) :
    c.acts C (l ++ l') = (c.acts C l).acts C l' := by
  simp [acts]

def Act.datagram : Act → Option Bytes
  | .receive datagram _ _ => some datagram
  | _ => none

/-- The datagrams an operation may take from the socket. -/
def Op.datagrams : Op → List Bytes
  | .tick t => t.arrivals.filterMap fun
    | .datagram bytes _ _ => some bytes
    | _ => none
  | _ => []

/-- Acts that take datagrams out of the given ones only. -/
abbrev LeadsBy (C : Crypto) (datagrams : List Bytes) : Client → Client → Prop :=
  Leads (fun c a => c.act C a) fun a => ∀ d, a.datagram = some d → d ∈ datagrams

theorem act_leads {a : Act} (ha : a.datagram = none) (datagrams : List Bytes) (c : Client) :
    LeadsBy C datagrams c (c.act C a) :=
  .single (fun d hd => by rw [ha] at hd; cases hd) c

variable {ds : List Bytes}

theorem flushLoop_leads (fuel : ℕ) (visits : Visits) (c : Client) :
    LeadsBy C ds c (c.flushLoop fuel visits).2 :=
  flushLoop_induction (P := fun r => LeadsBy C ds c r.2) fuel
    (fun c' now socket _ h => h.trans (act_leads (a := .visit now socket) rfl ds c')) (.refl ..)

theorem pumpReceive_leads (arrivals : List Arrival)
    (hds : ∀ bytes now visits, Arrival.datagram bytes now visits ∈ arrivals → bytes ∈ ds)
    (hc : c.Tame) (hopen : c.net.sockOpen = true) :
    LeadsBy C ds c (c.pumpReceive C arrivals).2 := by
  induction arrivals generalizing c with
  | nil => exact .refl ..
  | cons arrival rest ih =>
    have hrest := fun {c} => ih (c := c) fun bytes now visits h => hds bytes now visits (.tail _ h)
    cases arrival with
    | datagram bytes now visits =>
      have hnoted : (c.heard bytes).Tame := hc
      have hsteps : Steps C (fun _ _ => True) (c.heard bytes) (c.receive C bytes now visits) :=
        receive_steps hc bytes now visits fun _ _ _ _ _ => trivial
      have hfirst : LeadsBy C ds c (c.act C (.receive bytes now visits)) := by
        refine .single (fun d hd => ?_) c
        cases hd
        exact hds bytes now visits List.mem_cons_self
      rw [show c.act C (.receive bytes now visits) = c.receive C bytes now visits from
        if_pos hopen] at hfirst
      unfold pumpReceive
      dsimp only
      split_ifs with hclosed
      · exact hfirst
      · exact hfirst.trans (hrest (hsteps.tame hnoted) ((hsteps.socket hclosed).trans hopen))
    | truncated => exact hrest hc hopen
    | failed e => exact .refl ..

theorem tick_leads (t : TickInput) (hc : c.Tame) :
    LeadsBy C (Op.tick t).datagrams c (c.tick C t).2 := by
  have hflush : LeadsBy C (Op.tick t).datagrams c (c.flushPending t.flushVisits).2 :=
    flushLoop_leads ..
  unfold tick
  split <;> rename_i heq <;> rw [heq] at hflush
  · exact hflush
  rename_i c₁
  have hpump := hflush.trans (act_leads (C := C) (a := .pumpReliable t.reliableNow) rfl _ c₁)
  dsimp only [act] at hpump
  split <;> rename_i heq <;> rw [heq] at hpump
  · exact hpump
  rename_i c₂
  have hreceive : LeadsBy C (Op.tick t).datagrams c₂ (c₂.pumpReceive C (if c₂.net.sockOpen then
      t.arrivals else [.failed ⟨.invalidArg, "socket not open"⟩])).2 := by
    split_ifs with hopen
    · refine pumpReceive_leads t.arrivals (fun bytes now visits h => ?_)
        (hpump.invariant (fun c a h => act_tame h a) hc) hopen
      exact List.mem_filterMap.mpr ⟨_, h, rfl⟩
    · exact .refl ..
  replace hreceive := hpump.trans hreceive
  split <;> rename_i heq <;> rw [heq] at hreceive
  · exact hreceive
  · exact hreceive.trans (act_leads (a := .housekeep t.housekeepingNow) rfl _ _)

theorem step_acts (op : Op) (hc : c.Tame) : ∃ l, c.step C op = c.acts C l ∧
    ∀ a ∈ l, ∀ d, a.datagram = some d → d ∈ op.datagrams := by
  change LeadsBy C op.datagrams c _
  cases op with
  | connect server setup seed nonce now visits =>
    exact act_leads (a := .connect server setup seed nonce now visits) rfl _ c
  | stop now => exact act_leads (a := .stop now) rfl _ c
  | tick t => exact tick_leads t hc
  | send options type payload now =>
    exact act_leads (a := .send options type payload now) rfl _ c
  | sendPayload data => exact act_leads (a := .sendPayload data) rfl _ c
  | close now reason => exact act_leads (a := .close now reason) rfl _ c

end Client

end SecureCnet
