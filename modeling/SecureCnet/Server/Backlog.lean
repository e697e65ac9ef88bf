import SecureCnet.Server.Drain

/-!
# What a session has to send

The drain rule needs a packet of the session that leaves. Nothing takes packets out of
the queue except the flush loop, so a session whose server hello was queued has one
that left or still waits. A server hello that would amplify is dropped silently, though,
and then nothing may ever leave.
-/

namespace SecureCnet

namespace Server

variable {C : Crypto} {N : InetNtop} {a : Act} {srv srv' srv'' : Server} {connId now : UInt64}
  {ps : PeerSession} {source dest : Endpoint}

/-- A packet of the session waits in the queue. -/
def Owns (srv : Server) (connId : UInt64) : Prop :=
  ∃ pkt ∈ srv.net.pending, pkt.ownerConnId = connId

/-- No packet leaves the queue, and every session was there before and has sent nothing since, or
it has something to send. -/
structure Backs (srv srv' : Server) : Prop where
  pending : srv.net.pending ⊆ srv'.net.pending
  sessions : ∀ connId ps', srv'.sessions.lookup connId = some ps' →
    (∃ ps, srv.sessions.lookup connId = some ps ∧
      ps'.session.lastSendMs = ps.session.lastSendMs) ∨ srv'.Owns connId

theorem Owns.mono (h : srv.Owns connId) (hsub : srv.net.pending ⊆ srv'.net.pending) :
    srv'.Owns connId := by
  obtain ⟨pkt, hmem, howner⟩ := h
  exact ⟨pkt, hsub hmem, howner⟩

theorem backs_of_sub (hpending : srv.net.pending ⊆ srv'.net.pending)
    (hsub : ∀ connId ps, srv'.sessions.lookup connId = some ps →
      srv.sessions.lookup connId = some ps) : srv.Backs srv' :=
  ⟨hpending, fun connId ps h => Or.inl ⟨ps, hsub connId ps h, rfl⟩⟩

theorem SameTable.backs (h : srv.SameTable srv') (hpending : srv.net.pending ⊆ srv'.net.pending) :
    srv.Backs srv' :=
  backs_of_sub hpending fun _ _ hps => h.sessions ▸ hps

theorem Backs.refl (srv : Server) : srv.Backs srv :=
  backs_of_sub (List.Subset.refl _) fun _ _ h => h

theorem Backs.trans (h : srv.Backs srv') (h' : srv'.Backs srv'') : srv.Backs srv'' := by
  refine ⟨List.Subset.trans h.pending h'.pending, fun connId ps'' hps'' => ?_⟩
  rcases h'.sessions connId ps'' hps'' with ⟨ps', hps', hlast'⟩ | howns
  · rcases h.sessions connId ps' hps' with ⟨ps, hps, hlast⟩ | howns
    · exact Or.inl ⟨ps, hps, hlast'.trans hlast⟩
    · exact Or.inr (howns.mono h'.pending)
  · exact Or.inr howns

/-! ### Session code -/

theorem store_backs {p : Party} (hps : srv.sessions.lookup connId = some ps)
    (h : (srv.party connId ps).Queues p) : srv.Backs (srv.store connId ps p) := by
  refine ⟨h.pending, fun connId' ps' hps' => Or.inl ?_⟩
  rcases of_lookup_store hps' with ⟨rfl, rfl⟩ | ⟨-, hold⟩
  · exact ⟨ps, hps, h.lastSend⟩
  · exact ⟨ps', hold, rfl⟩

theorem RunsOn.backs {f : Party → Result Unit × Party} (h : srv.RunsOn connId f srv')
    (hf : ∀ ps, (srv.party connId ps).Queues (f (srv.party connId ps)).2) : srv.Backs srv' := by
  rcases h with rfl | ⟨ps, hps, rfl⟩
  · exact .refl srv'
  · exact store_backs hps (hf ps)

theorem Notes.backs (h : srv.Notes srv') : srv.Backs srv' :=
  h.sameTable.backs (h.net ▸ List.Subset.refl _)

theorem Evicts.backs (h : srv.Evicts srv') : srv.Backs srv' :=
  backs_of_sub (h.net ▸ List.Subset.refl _) h.sub

theorem errorChain_backs (source : Endpoint) (connId now : UInt64) (e : Failure) (srv : Server) :
    srv.Backs (srv.errorChain C source connId now e) := by
  have hnote := (noteInvalidPacket_notes source now srv).backs
  have h := errorChain_outcome (C := C) source connId now e srv
  generalize srv.errorChain C source connId now e = srv' at h
  cases h with
  | ignored => exact .refl srv
  | noted => exact hnote
  | closed reason =>
    exact hnote.trans ((closeSession_runsOn ..).backs fun ps =>
      (Party.closeSession_steps (A := fun _ _ => True) now reason _).queues rfl)

/-! ### Packets in the clear -/

theorem Replies.pending (h : srv.Replies C now dest srv') : srv.net.pending ⊆ srv'.net.pending := by
  rcases h with rfl | ⟨kind, payload, connId, owner, rfl⟩
  · exact List.Subset.refl _
  · exact fun _ h => Party.queuePlainPacket_pending h

theorem Replies.backs (h : srv.Replies C now dest srv') : srv.Backs srv' :=
  h.sameTable.backs h.pending

/-! ### A hello -/

/-- The bytes of a server hello. -/
def serverHelloBytes (config : ServerConfig) : ℕ :=
  if config.enableSessionResumption then 114 else 74

/-- The anti-amplification budget of the host allows a server hello. -/
def helloFits (source : Endpoint) (now : UInt64) (srv : Server) : Bool :=
  (srv.net.canAmplifyTo srv.config.abuse source
    (UInt64.ofNat (NetConfig.packetHeaderBytes + serverHelloBytes srv.config)) now).1

theorem helloFits_congr (hnet : srv'.net = srv.net) (hconfig : srv'.config = srv.config) :
    srv'.helloFits source now = srv.helloFits source now := by
  unfold helloFits
  rw [hnet, hconfig]

theorem length_serverHello (hello : ServerHello) : hello.encode.length =
    if hello.resumptionToken.isSome then 114 else 74 := by
  unfold ServerHello.encode
  cases hello.resumptionToken with
  | none => simp [encodeOptional]
  | some token => simp [encodeOptional, ResumptionToken.length_encode]

theorem sealAndEnqueue_owned {maxPending : UInt32} {owner : UInt64} {kind : PacketKind}
    {encrypted : Bool} {payload : Bytes} {connId seq : UInt64} {key : Block 32}
    {priority : SendPriority} {net net' : Transport} (h : sealAndEnqueue C maxPending dest owner
      kind encrypted payload connId seq key priority net = (.ok (), net')) :
    ∃ pkt ∈ net'.pending, pkt.ownerConnId = owner := by
  unfold sealAndEnqueue enqueuePendingPacket at h
  split at h
  · cases h
  · split_ifs at h
    · cases h
    · cases h
      exact ⟨_, Party.mem_push.mpr (Or.inl rfl), rfl⟩

theorem queuePlain_owns {kind : PacketKind} {payload : Bytes} {owner : UInt64}
    (h : srv.queuePlain C now dest kind payload connId owner = (.ok (), srv')) (hallowed :
      (srv.net.canAmplifyTo srv.config.abuse dest (UInt64.ofNat (NetConfig.packetHeaderBytes +
      payload.length)) now).1 = true) : srv'.Owns owner := by
  unfold queuePlain Transport.queuePlainPacket at h
  dsimp only at h
  split_ifs at h with hlarge hdenied
  · cases h
  · rw [Bool.not_eq_true'] at hdenied
    cases hdenied.symm.trans hallowed
  · obtain ⟨hrc, rfl⟩ := Prod.mk.inj h
    exact sealAndEnqueue_owned (Prod.ext hrc rfl)

/-- A server hello that fits and is not refused is queued. -/
theorem queueServerHello_owns {draws : Draws}
    (h : srv.queueServerHello C N now draws ps = (.ok (), srv'))
    (hfits : srv.helloFits ps.session.endpoint now = true) : srv'.Owns ps.session.connId := by
  unfold queueServerHello at h
  dsimp only at h
  split at h
  · cases h
  · rename_i payload heq
    refine queuePlain_owns h ?_
    simp only [Result.bind_eq_ok, Result.pure_eq, Except.ok.injEq] at heq
    obtain ⟨t, -, mac, -, w, hw, rfl⟩ := heq
    rw [writeServerHello_eq, ByteWriter.writeBytes_fresh] at hw
    split_ifs at hw
    · cases hw
      rw [length_serverHello]
      unfold helloFits serverHelloBytes at hfits
      unfold helloBody
      cases hres : srv.config.enableSessionResumption <;> simpa [hres] using hfits
    · cases hw

variable {hello : ClientHello} {resumed : Bool} {draws : Draws} {packet : PacketView}
  {r : Result Unit × Server}

theorem CreateOutcome.backs (h : CreateOutcome C N source hello resumed now draws srv r)
    (hfits : srv.helloFits source now = true) : srv.Backs r.2 := by
  have hevict := evictEndpoint_evicts source srv
  have hpending : ∀ a, srv.Prepares C source hello resumed now draws a →
      srv.net.pending ⊆ (srv.greet C N source now draws a).2.net.pending :=
    fun a ha => hevict.net ▸ ha.greet_replies.pending
  cases h with
  | keyless e => exact ⟨hevict.backs.pending, hevict.backs.sessions⟩
  | unanswered a e ha =>
    have hdrop := evictSession_evicts a.peer.session.connId (srv.greet C N source now draws a).2
    refine backs_of_sub (hdrop.net ▸ hpending a ha) fun connId ps' hps' => ?_
    have hold := hdrop.sub _ _ hps'
    rw [ha.greet_replies.sameTable.sessions] at hold
    rcases of_lookup_seat hold with ⟨rfl, -⟩ | ⟨-, hold⟩
    · cases (lookup_evictSession_self ..).symm.trans hps'
    · exact hold
  | answered a ha hq =>
    have hfits' : (srv.seat source a).helloFits a.peer.session.endpoint now = true := by
      rw [ha.peer_endpoint]
      exact (helloFits_congr hevict.net hevict.rules.config).trans hfits
    refine ⟨hpending a ha, fun connId ps' hps' => ?_⟩
    dsimp only at hps'
    rw [ha.greet_replies.sameTable.sessions] at hps'
    rcases of_lookup_seat hps' with ⟨rfl, -⟩ | ⟨-, hold⟩
    · exact Or.inr (queueServerHello_owns (Prod.ext hq rfl) hfits')
    · exact Or.inl ⟨ps', hold, rfl⟩

/-- The hello is allowed to the caps, and they leave room for it. -/
def Welcomes (C : Crypto) (N : InetNtop) (source : Endpoint) (hello : ClientHello) (now : UInt64)
    (srv : Server) : Prop :=
  (∃ resumed, srv.Admits C N source hello now resumed) ∧
    (srv.endpointIsBanned source now).1 = false ∧
    (srv.endpointRateLimited source now).1 = false ∧ srv.full source now = false

theorem HelloOutcome.backs (h : HelloOutcome C N source hello now draws srv r)
    (hfits : srv.Welcomes C N source hello now → srv.helloFits source now = true) :
    srv.Backs r.2 := by
  have hnotes := checked_notes source now srv
  have hchecked := hnotes.backs
  have hevict := evictStaleSessions_evicts now (srv.checked source now)
  cases h with
  | twoTokens => exact .refl srv
  | banned => exact (endpointIsBanned_notes source now srv).backs
  | limited => exact hchecked
  | asked token | askedAgain token => exact hchecked.trans (queueRetry_replies ..).backs
  | expired => exact hchecked.trans (queuePlainClose_replies ..).backs
  | full resumed reason =>
    exact (hchecked.trans hevict.backs).trans (queuePlainClose_replies ..).backs
  | created resumed hpass hadm hfull _ h =>
    refine (hchecked.trans hevict.backs).trans (h.backs ?_)
    rw [helloFits_congr (hevict.net.trans hnotes.net)
      (hevict.rules.config.trans hnotes.sameTable.rules.config)]
    exact hfits ⟨⟨resumed, hadm⟩, hpass.banned, hpass.limited, hfull⟩

/-! ### A datagram -/

theorem PacketOutcome.backs (h : PacketOutcome C N source packet now draws srv srv')
    (hfits : ∀ hello, packet.h.kind = PacketKind.handshake.code → readHandshake packet = .ok hello →
      srv.Welcomes C N source hello now → srv.helloFits source now = true) : srv.Backs srv' := by
  have hqueues : ∀ ps rc q, (srv.party packet.h.connId ps).handleSessionPacket C now packet =
      (rc, q) → (srv.party packet.h.connId ps).Queues q := by
    intro ps rc q hq
    have hsteps := Party.handleSessionPacket_steps (C := C) (A := fun _ _ => True) now packet
      (srv.party packet.h.connId ps) rfl fun _ _ _ => Or.inl (by simp)
    rw [hq] at hsteps
    exact hsteps.queues rfl
  cases h with
  | faulty e | nameless e => exact errorChain_backs ..
  | greeted hello hkind hread h => exact h.backs (hfits hello hkind hread)
  | unwelcome hello e hkind hread h =>
    exact (h.backs (hfits hello hkind hread)).trans (errorChain_backs ..)
  | unknown => exact (queuePlainClose_replies ..).backs
  | taken ps q _ _ hps _ hq =>
    exact store_backs hps (hqueues ps _ q hq)
  | failed ps q e _ _ hps _ hq =>
    exact (store_backs hps (hqueues ps _ q hq)).trans (errorChain_backs ..)

theorem Welcomes.congr {hello : ClientHello} (h : srv'.Welcomes C N source hello now)
    (hsame : srv.SameTable srv') (hstate : srv'.abuseStateFor source = srv.abuseStateFor source) :
    srv.Welcomes C N source hello now := by
  obtain ⟨⟨resumed, hadm⟩, hban, hlim, hroom⟩ := h
  have hpass := Passes.congr ⟨hban, hlim⟩ hstate.symm hsame.rules.config.symm
  exact ⟨⟨resumed, hadm.sameRules hsame.rules.symm⟩, hpass.banned, hpass.limited,
    (full_congr source now hsame).symm.trans hroom⟩

theorem handlePacket_backs (packet : PacketView) (draws : Draws)
    (hfits : ∀ hello, packet.h.kind = PacketKind.handshake.code → readHandshake packet = .ok hello →
      srv.Welcomes C N source hello now → srv.helloFits source now = true) :
    srv.Backs (srv.handlePacket C N source packet now draws) := by
  have hnotes := past_notes source packet now srv
  rcases handlePacket_outcome (C := C) (N := N) source packet now draws srv with
    ⟨-, heq⟩ | ⟨-, h⟩
  · exact heq ▸ (endpointIsBanned_notes source now srv).backs
  · refine hnotes.backs.trans (h.backs fun hello hkind hread hwelcome => ?_)
    rw [helloFits_congr hnotes.net hnotes.sameTable.rules.config]
    exact hfits hello hkind hread
      (hwelcome.congr hnotes.sameTable (abuseStateFor_past source packet now srv))

/-- The act is no hello that comes to the caps and whose answer would be dropped. -/
def Act.HelloFits (C : Crypto) (N : InetNtop) (a : Act) (srv : Server) : Prop :=
  ∀ source datagram now draws hello, a = .receive source datagram now draws →
    IsHello datagram hello → srv.Welcomes C N source hello now →
    (srv.notePreauthReceive source datagram.length now).helloFits source now = true

theorem receive_backs {datagram : Bytes} {draws : Draws}
    (hfits : (Act.receive source datagram now draws).HelloFits C N srv) :
    srv.Backs (srv.receive C N source datagram now draws) := by
  have hsame := notePreauthReceive_sameTable source datagram.length now srv
  have hcounted : srv.Backs (srv.notePreauthReceive source datagram.length now) :=
    hsame.backs (List.Subset.refl _)
  have h := receive_outcome (C := C) (N := N) source datagram now draws srv
  generalize srv.receive C N source datagram now draws = srv' at h
  cases h with
  | outdated e => exact hcounted.trans (queuePlainClose_replies ..).backs
  | garbled e => exact hcounted.trans (noteInvalidPacket_notes ..).backs
  | known packet hp htraffic =>
    refine handlePacket_backs packet draws fun hello hkind => ?_
    simp [isSessionTraffic, hkind] at htraffic
  | counted packet hp =>
    refine hcounted.trans (handlePacket_backs packet draws fun hello hkind hread hwelcome => ?_)
    exact hfits source datagram now draws hello rfl ⟨packet, hp, hkind, hread⟩
      (hwelcome.congr hsame rfl)

/-! ### Runs -/

/-- Every session has sent a packet, or has one to send. -/
def Removable (srv : Server) : Prop :=
  ∀ connId ps, srv.sessions.lookup connId = some ps →
    ps.session.lastSendMs ≠ 0 ∨ srv.Owns connId

theorem Backs.removable (h : srv.Backs srv') (hsrv : srv.Removable) : srv'.Removable := by
  intro connId ps' hps'
  rcases h.sessions connId ps' hps' with ⟨ps, hps, hlast⟩ | howns
  · exact (hsrv connId ps hps).imp (hlast ▸ ·) (·.mono h.pending)
  · exact Or.inr howns

def Act.Ticks (a : Act) : Prop := ∀ now i socket, a = .visit now i socket → now ≠ 0

theorem Owns.eraseIdx {i : ℕ} {pkt : PendingPacket} (h : srv.Owns connId)
    (hpkt : srv.net.pending[i]? = some pkt) (hne : pkt.ownerConnId ≠ connId)
    (herase : srv'.net.pending = srv.net.pending.eraseIdx i) : srv'.Owns connId := by
  obtain ⟨q, hq, howner⟩ := h
  obtain ⟨j, hj⟩ := List.mem_iff_getElem?.mp hq
  refine ⟨q, ?_, howner⟩
  rw [herase]
  refine List.mem_eraseIdx_iff_getElem?.mpr ⟨j, ?_, hj⟩
  rintro rfl
  obtain rfl := Option.some.inj (hj.symm.trans hpkt)
  exact hne howner

theorem Visited.removable {i : ℕ} {pkt : PendingPacket} (hidx : srv.Indexed)
    (hpkt : srv.net.pending[i]? = some pkt) (h : srv.Visited now i pkt srv') (hnow : now ≠ 0)
    (hsrv : srv.Removable) : srv'.Removable := by
  cases h with
  | refused => exact hsrv
  | sent howner =>
    intro connId ps hps
    have hne : pkt.ownerConnId ≠ connId := by
      rw [howner]
      exact (hidx.nonzero hps).symm
    exact (hsrv connId ps hps).imp_right (·.eraseIdx hpkt hne rfl)
  | dropped howner hnone =>
    intro connId ps hps
    have hne : pkt.ownerConnId ≠ connId := by
      rintro rfl
      cases hnone.symm.trans hps
    exact (hsrv connId ps hps).imp_right (·.eraseIdx hpkt hne rfl)
  | left ps p socket bytes howner hps hflush =>
    obtain ⟨hlast, hpending, -⟩ := Party.flushAt_some hflush
    intro connId ps' hps'
    rcases of_lookup_store hps' with ⟨rfl, rfl⟩ | ⟨hid, hold⟩
    · exact Or.inl (hlast.symm ▸ hnow)
    · exact (hsrv connId ps' hold).imp_right (·.eraseIdx hpkt (Ne.symm hid) hpending)
  | stayed ps p socket howner hps hflush =>
    obtain ⟨hlast, hnet⟩ := Party.flushAt_none hflush
    have hside := (Party.flushAt_follows now i socket (srv.party pkt.ownerConnId ps)).side
    rw [hflush] at hside
    exact (store_backs hps ⟨hside, hlast, hnet ▸ List.Subset.refl _⟩).removable hsrv

/-- One act. -/
theorem Indexed.act_removable (hidx : srv.Indexed) (hsrv : srv.Removable)
    (hfits : a.HelloFits C N srv) (hticks : a.Ticks) : (srv.act C N a).Removable := by
  have hcall : ∀ (connId : UInt64) (ps : PeerSession) (k : Party.Call),
      (∀ now i socket, k ≠ .flush now i socket) →
      (srv.party connId ps).Queues ((srv.party connId ps).call C k) :=
    fun connId ps k => Party.call_queues rfl
  cases a with
  | receive source datagram now draws => exact (receive_backs hfits).removable hsrv
  | visit now i socket =>
    unfold act
    cases hpkt : srv.net.pending[i]? with
    | none => simpa only [hpkt] using hsrv
    | some pkt =>
      simp only [hpkt]
      exact (visitPacket_visited ..).removable hidx hpkt (hticks now i socket rfl) hsrv
  | pumpReliable connId now =>
    exact ((onStored_runsOn ..).backs fun ps =>
      hcall connId ps (.pumpReliable now) (by simp)).removable hsrv
  | housekeep connId now =>
    exact ((onStored_runsOn ..).backs fun ps =>
      hcall connId ps (.housekeep now) (by simp)).removable hsrv
  | expireTables now =>
    obtain ⟨hsessions, -, hpending⟩ := expireTables_keeps now srv
    refine (backs_of_sub ?_ fun _ _ h => ?_ : srv.Backs (srv.expireTables now)).removable hsrv
    · exact hpending ▸ List.Subset.refl _
    · exact hsessions ▸ h
  | evictStale now => exact (evictStaleSessions_evicts now srv).backs.removable hsrv
  | send endpoint connId options type payload now =>
    exact ((onPeer_runsOn ..).backs fun ps =>
      hcall connId ps (.send options type payload now) (by simp)).removable hsrv
  | sendPayload endpoint connId data =>
    exact ((onPeer_runsOn ..).backs fun ps =>
      hcall connId ps (.sendPayload data) (by simp)).removable hsrv
  | closePeer endpoint connId now reason =>
    exact ((onPeer_runsOn ..).backs fun ps =>
      hcall connId ps (.close now reason) (by simp)).removable hsrv
  | listen setup secret =>
    unfold act listen
    cases validateServerConfig srv.config with
    | error e => exact hsrv
    | ok u =>
      intro connId ps hps
      cases setup <;> cases hps
  | stop =>
    intro connId ps hps
    cases hps

/-- In every run in which no server hello is dropped and the clock of the flush loop does not
read 0, every session, closing or not, has sent a packet or has one to send. -/
theorem sessions_removable (config : ServerConfig) (l : List Act)
    (hfits : ∀ before a after, l = before ++ a :: after →
      a.HelloFits C N (({ config } : Server).acts C N before) ∧ a.Ticks) :
    (({ config } : Server).acts C N l).Removable := by
  induction l using List.reverseRecOn with
  | nil =>
    intro connId ps hps
    cases hps
  | append_singleton l a ih =>
    obtain ⟨hfit, hticks⟩ := hfits l a [] rfl
    have hsrv := ih fun before a' after h => hfits before a' (after ++ [a]) (by rw [h]; simp)
    rw [acts_append, acts_cons, acts_nil]
    exact (indexed_acts config l).act_removable hsrv hfit hticks

/-- The session of `greetedServer` waits for its server hello to leave. -/
theorem greeted_removable :
    greetedServer.sessions.lookup 7 = some greetedSession ∧
      (greetedSession.session.lastSendMs ≠ 0 ∨ greetedServer.Owns 7) := by
  have hps : greetedServer.sessions.lookup 7 = some greetedSession := (Option.some_get _).symm
  refine ⟨hps, sessions_removable {} greeted (fun before a after hsplit => ⟨?_, ?_⟩) 7 _ hps⟩
  · have hfirst : ((({} : Server).acts .checksum .standard (greeted.take 1)).notePreauthReceive
        loopback (helloDatagram firstHello).length 1000).helloFits loopback 1000 = true := by
      decide +kernel
    have hsecond : ((({} : Server).acts .checksum .standard (greeted.take 2)).notePreauthReceive
        loopback (helloDatagram returningHello).length 1200).helloFits loopback 1200 = true := by
      decide +kernel
    rintro source datagram now draws hello rfl - -
    rcases before with _ | ⟨a₁, _ | ⟨a₂, _ | ⟨a₃, before⟩⟩⟩
    · cases hsplit
    · cases hsplit
      exact hfirst
    · cases hsplit
      exact hsecond
    · simp [greeted] at hsplit
  · rintro now i socket rfl
    have hmem : Act.visit now i socket ∈ greeted := by
      rw [hsplit]
      simp
    simp [greeted] at hmem

/-- A server that sends no more than it got. -/
def frugalConfig : ServerConfig where
  enableSessionResumption := true
  idleTimeoutMs := 1000
  handshakeTimeoutMs := 3000
  keepaliveIntervalMs := 500
  abuse := { antiAmplificationFactor := 1, antiAmplificationSlackBytes := 0 }

/-- The retry has left when the client comes back, so its server hello is dropped. -/
def unanswered : List Act :=
  [.listen .ready (Block.zero 32), .receive loopback (helloDatagram firstHello) 1000 {},
    .visit 1001 0 .sent, .receive loopback (helloDatagram returningHello) 1200 { connIds := [7] }]

/-- Housekeeping forgets the host and later closes the session; its close frame is dropped too. -/
def unansweredServer : Server :=
  (((({ config := frugalConfig } : Server).acts .checksum .standard unanswered).runHousekeeping
    .checksum 2500 2500).2.runHousekeeping .checksum 5000 5000).2

/-- The session has sent nothing, has nothing to send, and is still there much later. -/
theorem closing_session_stays :
    validateServerConfig frugalConfig = .ok () ∧
      (unansweredServer.sessions.lookup 7).map (fun ps => (ps.session.state,
        ps.session.lastSendMs)) = some (.closing, 0) ∧
      unansweredServer.net.pending.map PendingPacket.ownerConnId = [] ∧
      (unansweredServer.runHousekeeping .checksum 1000000 1000000).2.sessions.keys = [7] := by
  decide +kernel

end Server

end SecureCnet
