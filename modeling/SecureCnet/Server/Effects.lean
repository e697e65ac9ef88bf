import SecureCnet.Library.Leads
import SecureCnet.Server.Outcomes
import SecureCnet.Session.Continuity
import SecureCnet.Wire.HandshakeCodec

/-!
# What a server operation can do

The public operations are sequences of smaller acts: one datagram, one visit of a
loop, one call for a session. Each act in turn is a sequence of elementary changes
of the tables, the queue and the stored sessions. An invariant of the server is
proved once for every change and then holds along every run.
-/

namespace SecureCnet

namespace Party

/-- Session code of a server keeps what identifies the session, and its states go one way. -/
structure Continues (p p' : Party) : Prop where
  side : p'.side = p.side
  endpoint : p'.session.endpoint = p.session.endpoint
  connId : p'.session.connId = p.session.connId
  keys : p'.session.keys = p.session.keys
  rank : p.session.state.rank ≤ p'.session.state.rank

variable {C : Crypto} {p p' p'' : Party}

theorem Continues.refl (p : Party) : p.Continues p := ⟨rfl, rfl, rfl, rfl, le_rfl⟩

theorem Continues.trans (h : p.Continues p') (h' : p'.Continues p'') : p.Continues p'' :=
  ⟨h'.side.trans h.side, h'.endpoint.trans h.endpoint, h'.connId.trans h.connId,
    h'.keys.trans h.keys, h.rank.trans h'.rank⟩

theorem Queued.continues {kind : PacketKind} {payload : Bytes} {priority : SendPriority}
    {rc : Result Unit} (h : Queued C p kind payload priority rc p') : p.Continues p' := by
  obtain ⟨n, es, net, rfl, -⟩ := h.upToNumber
  exact ⟨rfl, rfl, rfl, rfl, le_rfl⟩

theorem Change.continues {A : Channel → UInt64 → Prop} (hside : ∃ config, p.side = .server config)
    (h : Change C A p p') : p.Continues p' := by
  cases h with
  | session s h => exact ⟨rfl, h.endpoint, h.connId, h.keys, h.rank⟩
  | dies _ h =>
    -- Only clients die.
    obtain ⟨config, hc⟩ := hside
    obtain ⟨config', hc'⟩ := h.dead.1
    rw [h.side, hc] at hc'
    cases hc'
  | ends config hs hstate =>
    rw [ends_eq hstate]
    exact ⟨rfl, rfl, rfl, rfl, ConnectionState.rank_le_closed _⟩
  | queue _ _ _ _ _ h => exact h.continues
  | ack q _ _ h => exact h.continues.trans ⟨rfl, rfl, rfl, rfl, le_rfl⟩
  | plain _ h =>
    obtain ⟨s, net, rfl, rfl | rfl, -⟩ := h.shape <;> exact ⟨rfl, rfl, rfl, rfl, le_rfl⟩

theorem Steps.continues {A : Channel → UInt64 → Prop} (hside : ∃ config, p.side = .server config)
    (h : Steps C A p p') : p.Continues p' := by
  induction h with
  | refl => exact .refl p
  | tail _ hc ih =>
    rw [← ih.side] at hside
    exact ih.trans (hc.continues hside)

theorem Sending.continues {priority : SendPriority} {msgs : List MsgView}
    (h : Sending C priority p msgs p') : p.Continues p' := by
  refine h.rule .refl .trans ?_ Queued.continues
  rintro p s ⟨_, _, _, _, _, es, rfl, -⟩
  exact ⟨rfl, rfl, rfl, rfl, le_rfl⟩

theorem flushAt_continues {now : UInt64} {i : ℕ} {socket : SocketResult} {left : Option Bytes}
    (h : p.flushAt now i socket = (left, p')) : p.Continues p' := by
  obtain ⟨budget, lastSendMs, net, hp, -⟩ := flushAt_shape now i socket p
  rw [h] at hp
  dsimp only at hp
  rw [hp]
  exact ⟨rfl, rfl, rfl, rfl, le_rfl⟩

theorem Ran.continues (hside : ∃ config, p.side = .server config) (h : p.Ran C p') :
    p.Continues p' := by
  cases h with
  | steps h => exact h.continues hside
  | sends h => exact h.continues

end Party

/-- A server hello made for an admitted session, over the hello that was saved with it. -/
structure Admission.Made (C : Crypto) (a : Admission) (hello : ServerHello) : Prop where
  connId : hello.serverConnId = a.peer.session.connId
  publicKey : hello.serverPublicKey = a.peer.session.ephemeral.publicKey
  mac : C.genericHash a.peer.session.keys.tx (transcript a.peer.clientHello hello) =
    some hello.transcriptMac

namespace Server

/-- One datagram, one visit of a loop, or one call for one session. -/
inductive Act
  | receive (source : Endpoint) (datagram : Bytes) (now : UInt64) (draws : Draws)
  | visit (now : UInt64) (i : ℕ) (socket : SocketResult)
  | pumpReliable (connId : UInt64) (now : UInt64)
  | housekeep (connId : UInt64) (now : UInt64)
  | expireTables (now : UInt64)
  | evictStale (now : UInt64)
  | send (endpoint : Endpoint) (connId : UInt64) (options : SendOptions) (type : UInt8)
      (payload : Bytes) (now : UInt64)
  | sendPayload (endpoint : Endpoint) (connId : UInt64) (data : Bytes)
  | closePeer (endpoint : Endpoint) (connId : UInt64) (now : UInt64) (reason : CloseReason)
  | listen (setup : SocketSetup) (secret : Block 32)
  | stop

variable (C : Crypto) (N : InetNtop)

def act (a : Act) (srv : Server) : Server :=
  match a with
  | .receive source datagram now draws => srv.receive C N source datagram now draws
  | .visit now i socket =>
    match srv.net.pending[i]? with
    | none => srv
    | some pkt => (srv.visitPacket now i pkt socket).2
  | .pumpReliable connId now => (srv.onStored (Party.pumpReliable C now) connId).2
  | .housekeep connId now => (srv.onStored (Party.runHousekeeping C now) connId).2
  | .expireTables now => srv.expireTables now
  | .evictStale now => srv.evictStaleSessions now
  | .send endpoint connId options type payload now =>
    (srv.send C endpoint connId options type payload now).2
  | .sendPayload endpoint connId data => (srv.sendPayload C endpoint connId data).2
  | .closePeer endpoint connId now reason => (srv.closePeer C endpoint connId now reason).2
  | .listen setup secret => (srv.listen setup secret).2
  | .stop => srv.stop

def acts (l : List Act) (srv : Server) : Server := l.foldl (fun srv a => srv.act C N a) srv

/-! ### Operations are sequences of acts -/

section

variable {C N}

@[simp] theorem acts_nil (srv : Server) : srv.acts C N [] = srv := rfl

@[simp] theorem acts_cons (a : Act) (l : List Act) (srv : Server) :
    srv.acts C N (a :: l) = (srv.act C N a).acts C N l := rfl

theorem acts_append (l l' : List Act) (srv : Server) :
    srv.acts C N (l ++ l') = (srv.acts C N l).acts C N l' := by
  simp [acts]

/-- The datagram an act takes from the socket. -/
def Act.datagram : Act → Option Bytes
  | .receive _ datagram _ _ => some datagram
  | _ => none

/-- The datagrams an operation may take from the socket. -/
def Op.datagrams : Op → List Bytes
  | .tick t => t.arrivals.filterMap fun
    | .datagram _ bytes _ _ => some bytes
    | _ => none
  | _ => []

/-- Acts that take datagrams out of the given ones only. -/
abbrev LeadsBy (C : Crypto) (N : InetNtop) (datagrams : List Bytes) : Server → Server → Prop :=
  Leads (fun srv a => srv.act C N a) fun a => ∀ d, a.datagram = some d → d ∈ datagrams

theorem act_leads {a : Act} (ha : a.datagram = none) (datagrams : List Bytes) (srv : Server) :
    LeadsBy C N datagrams srv (srv.act C N a) :=
  .single (fun d hd => by rw [ha] at hd; cases hd) srv

variable {ds : List Bytes}

theorem visitSessions_leads {f : UInt64 → Server → Result Unit × Server}
    (hf : ∀ connId srv, LeadsBy C N ds srv (f connId srv).2) (ids : List UInt64) (srv : Server) :
    LeadsBy C N ds srv (visitSessions f ids srv).2 := by
  induction ids generalizing srv with
  | nil => exact .refl ..
  | cons connId rest ih =>
    have hstep := hf connId srv
    unfold visitSessions
    split <;> rename_i heq <;> rw [heq] at hstep
    · exact hstep
    · exact hstep.trans (ih _)

theorem flushLoop_leads (fuel i : ℕ) (now : UInt64) (clock : List UInt64)
    (sockets : List SocketResult) (srv : Server) :
    LeadsBy C N ds srv (srv.flushLoop fuel i now clock sockets).2 := by
  induction fuel generalizing i now clock sockets srv with
  | zero => exact .refl ..
  | succ fuel ih =>
    unfold flushLoop
    cases hpkt : srv.net.pending[i]? with
    | none => exact .refl ..
    | some pkt =>
      have hvisit := act_leads (C := C) (N := N) (a := .visit now i (sockets.headD .wouldBlock)) rfl
        ds srv
      simp only [act, hpkt] at hvisit
      dsimp only
      split <;> rename_i heq <;> rw [heq] at hvisit
      · exact hvisit.trans (ih ..)
      · exact hvisit.trans (ih ..)
      · exact hvisit

theorem pumpReceive_leads (arrivals : List Arrival)
    (hds : ∀ source bytes now draws, Arrival.datagram source bytes now draws ∈ arrivals → bytes ∈ ds)
    (srv : Server) : LeadsBy C N ds srv (srv.pumpReceive C N arrivals).2 := by
  induction arrivals generalizing srv with
  | nil => exact .refl ..
  | cons arrival rest ih =>
    have hrest := ih fun source bytes now draws h => hds source bytes now draws (.tail _ h)
    cases arrival with
    | datagram source bytes now draws =>
      refine .trans (.single (a := .receive source bytes now draws) ?_ srv) (hrest _)
      intro d hd
      cases hd
      exact hds source bytes now draws List.mem_cons_self
    | truncated => exact hrest srv
    | failed e => exact .refl ..

theorem runHousekeeping_leads (now evictNow : UInt64) (srv : Server) :
    LeadsBy C N ds srv (srv.runHousekeeping C now evictNow).2 := by
  have hvisits : LeadsBy C N ds srv
      (visitSessions (onStored (Party.runHousekeeping C now)) srv.sessions.keys srv).2 :=
    visitSessions_leads (fun connId => act_leads (a := .housekeep connId now) rfl ds) ..
  unfold runHousekeeping
  split <;> rename_i heq <;> rw [heq] at hvisits
  · exact hvisits
  · exact (hvisits.trans (act_leads (a := .expireTables now) rfl ds _)).trans
      (act_leads (a := .evictStale evictNow) rfl ds _)

theorem tick_leads (t : TickInput) (srv : Server) :
    LeadsBy C N (Op.tick t).datagrams srv (srv.tick C N t).2 := by
  have hflush : LeadsBy C N (Op.tick t).datagrams srv
      (srv.flushPending t.flushNow t.flushClock t.sockets).2 := flushLoop_leads ..
  unfold tick
  split <;> rename_i heq <;> rw [heq] at hflush
  · exact hflush
  rename_i srv₁
  have hpump := hflush.trans (visitSessions_leads (C := C) (N := N)
    (f := onStored (Party.pumpReliable C t.reliableNow))
    (fun connId => act_leads (a := .pumpReliable connId t.reliableNow) rfl _)
    srv₁.sessions.keys srv₁)
  unfold pumpReliable
  split <;> rename_i heq <;> rw [heq] at hpump
  · exact hpump
  rename_i srv₂
  have hreceive := hpump.trans (pumpReceive_leads (C := C) (N := N) (if srv₂.net.sockOpen then
    t.arrivals else [.failed ⟨.invalidArg, "socket not open"⟩]) (by
      intro source bytes now draws h
      split_ifs at h
      · exact List.mem_filterMap.mpr ⟨_, h, rfl⟩
      · simp at h) srv₂)
  split <;> rename_i heq <;> rw [heq] at hreceive
  · exact hreceive
  · exact hreceive.trans (runHousekeeping_leads ..)

theorem broadcastLoop_leads (excluded : UInt64 → Bool) (options : SendOptions) (type : UInt8)
    (payload : Bytes) (now : UInt64) (ids : List UInt64) (first : Result Unit) (srv : Server) :
    LeadsBy C N ds srv (srv.broadcastLoop C excluded options type payload now ids first).2 := by
  induction ids generalizing first srv with
  | nil => exact .refl ..
  | cons connId rest ih =>
    unfold broadcastLoop
    split
    · exact ih first srv
    · rename_i ps _
      have hsend := act_leads (C := C) (N := N) (a := .send ps.session.endpoint ps.session.connId
        options type payload now) rfl ds srv
      split_ifs
      · exact ih first srv
      all_goals exact hsend.trans (ih ..)

/-- Every public operation is a sequence of acts. -/
theorem step_acts (op : Op) (srv : Server) : ∃ l, srv.step C N op = srv.acts C N l ∧
    ∀ a ∈ l, ∀ d, a.datagram = some d → d ∈ op.datagrams := by
  change LeadsBy C N op.datagrams srv _
  cases op with
  | listen setup secret => exact act_leads (a := .listen setup secret) rfl _ srv
  | stop => exact act_leads (a := .stop) rfl _ srv
  | tick t => exact tick_leads t srv
  | send endpoint connId options type payload now =>
    exact act_leads (a := .send endpoint connId options type payload now) rfl _ srv
  | sendPayload endpoint connId data =>
    exact act_leads (a := .sendPayload endpoint connId data) rfl _ srv
  | broadcast options type payload now => exact broadcastLoop_leads ..
  | broadcastExcept excluded options type payload now => exact broadcastLoop_leads ..
  | closePeer endpoint connId now reason =>
    exact act_leads (a := .closePeer endpoint connId now reason) rfl _ srv

end

/-- Everything a visit of the flush loop can do. -/
inductive Visited (now : UInt64) (i : ℕ) (pkt : PendingPacket) (srv : Server) : Server → Prop
  | refused : Visited now i pkt srv srv
  /-- A packet of no session left. -/
  | sent (howner : pkt.ownerConnId = 0) : Visited now i pkt srv
      (log (.sent pkt) { srv with net := (srv.net.notePreauthSend pkt.dest
        (UInt64.ofNat pkt.bytes.length) now).removeAt i pkt.bytes.length })
  /-- The session of the packet is gone. -/
  | dropped (howner : pkt.ownerConnId ≠ 0) (hnone : srv.sessions.lookup pkt.ownerConnId = none) :
      Visited now i pkt srv { srv with net := srv.net.removeAt i pkt.bytes.length }
  | left (ps : PeerSession) (p : Party) (socket : SocketResult) (bytes : Bytes)
      (howner : pkt.ownerConnId ≠ 0) (hps : srv.sessions.lookup pkt.ownerConnId = some ps)
      (hflush : (srv.party pkt.ownerConnId ps).flushAt now i socket = (some bytes, p)) :
      Visited now i pkt srv (log (.sent pkt) (srv.store pkt.ownerConnId ps p))
  | stayed (ps : PeerSession) (p : Party) (socket : SocketResult)
      (howner : pkt.ownerConnId ≠ 0) (hps : srv.sessions.lookup pkt.ownerConnId = some ps)
      (hflush : (srv.party pkt.ownerConnId ps).flushAt now i socket = (none, p)) :
      Visited now i pkt srv (srv.store pkt.ownerConnId ps p)

theorem visitPacket_visited (now : UInt64) (i : ℕ) (pkt : PendingPacket) (socket : SocketResult)
    (srv : Server) : srv.Visited now i pkt (srv.visitPacket now i pkt socket).2 := by
  unfold visitPacket
  generalize hsock : (if srv.net.sockOpen = true then socket else SocketResult.failed) = result
  dsimp only
  split_ifs with howner
  · cases result with
    | sent => exact .sent howner
    | wouldBlock => exact .refused
    | failed => exact .refused
  · cases hps : srv.sessions.lookup pkt.ownerConnId with
    | none => exact .dropped howner hps
    | some ps =>
      dsimp only
      cases hflush : (srv.party pkt.ownerConnId ps).flushAt now i result with
      | mk bytes p =>
        cases bytes with
        | none => exact .stayed ps p result howner hps hflush
        | some bytes => exact .left ps p result bytes howner hps hflush

/-! ### Elementary changes -/

/-- What a server tells a client in a handshake packet: a retry token, or the server hello of a
session it admitted. -/
def Answers (srv : Server) (payload : Bytes) : Prop :=
  (∃ token, payload = encodeRetry token) ∨
    ∃ a hello, ServerEvent.admitted a ∈ srv.history ∧ a.Made C hello ∧ payload = hello.encode

/-- The elementary changes of a server; `H` says which hellos may be admitted. -/
inductive Change (H : Endpoint → ClientHello → UInt64 → Prop) (srv : Server) : Server → Prop
  | hosts {srv' : Server} (h : srv.Notes srv') : Change H srv srv'
  | counted (endpoint : Endpoint) (bytes : ℕ) (now : UInt64) :
      Change H srv (srv.notePreauthReceive endpoint bytes now)
  /-- A packet in the clear, of no session or of a stored one. -/
  | plain (now : UInt64) (dest : Endpoint) (kind : PacketKind) (payload : Bytes)
      (connId owner : UInt64)
      (ho : owner = 0 ∨ ∃ ps, srv.sessions.lookup owner = some ps ∧ ps.session.endpoint = dest)
      (hp : kind = .handshake → srv.Answers C payload) :
      Change H srv (srv.queuePlain C now dest kind payload connId owner).2
  /-- Code of a stored session ran. -/
  | ran (connId : UInt64) (ps : PeerSession) (p : Party)
      (hps : srv.sessions.lookup connId = some ps) (h : (srv.party connId ps).Ran C p) :
      Change H srv (srv.store connId ps p)
  | visited {now : UInt64} {i : ℕ} {pkt : PendingPacket} {srv' : Server}
      (hpkt : srv.net.pending[i]? = some pkt) (h : srv.Visited now i pkt srv') : Change H srv srv'
  | evicted (connId : UInt64) : Change H srv (srv.evictSession connId)
  | numbered : Change H srv srv.advancePeerId
  | admitted (source : Endpoint) (hello : ClientHello) (resumed : Bool) (now : UInt64)
      (draws : Draws) (keys : SessionKeys) (htoken : srv.Admits C N source hello now resumed)
      (hroom : srv.HasRoom source.hostKey) (hH : H source hello now)
      (hkeys : C.kxServer (C.kxKeypair draws.seed) hello.clientPublicKey = some keys) :
      Change H srv ((srv.evictEndpoint source).advancePeerId.emplace
        ((srv.evictEndpoint source).admission C source hello resumed now draws keys))
  | forgot (host : Host) : Change H srv (srv.forgetHost host)
  | stopped : Change H srv srv.stop
  /-- The socket is set up; no hello is admitted meanwhile. -/
  | opened (secret : Block 32) (hH : ∀ source hello now, ¬ H source hello now) : Change H srv
      { srv with net := { srv.net with sockOpen := true }, cookieSecret := secret }

/-- A sequence of elementary changes. -/
abbrev Steps (H : Endpoint → ClientHello → UInt64 → Prop) : Server → Server → Prop :=
  Relation.ReflTransGen (Change C N H)

variable {C N} {H : Endpoint → ClientHello → UInt64 → Prop}

theorem Notes.steps {srv srv' : Server} (h : srv.Notes srv') : Steps C N H srv srv' :=
  .single (.hosts h)

theorem queueRetry_steps (now : UInt64) (dest : Endpoint) (token : RetryToken) (srv : Server) :
    Steps C N H srv (srv.queueRetry C now dest token).2 := by
  unfold queueRetry
  rw [writeRetry_eq, ByteWriter.writeBytes_fresh]
  split_ifs
  · exact .single (.plain now dest .handshake _ 0 0 (Or.inl rfl) fun _ => Or.inl ⟨token, rfl⟩)
  · exact .refl

theorem queuePlainClose_steps (now : UInt64) (dest : Endpoint) (connId : UInt64)
    (reason : CloseReason) (srv : Server) :
    Steps C N H srv (srv.queuePlainClose C now dest connId reason) := by
  unfold queuePlainClose
  cases writeCloseFrame ⟨8, []⟩ reason with
  | error e => exact .refl
  | ok w => exact .single (.plain now dest .close w.out connId 0 (Or.inl rfl) fun h => by cases h)

/-- The payload `queue_server_hello` puts together is a server hello made for the session. -/
theorem serverHelloPayload_made {a : Admission} {body : ServerHello} {payload : Bytes}
    (hid : body.serverConnId = a.peer.session.connId)
    (hkey : body.serverPublicKey = a.peer.session.ephemeral.publicKey)
    (h : (do
      let transcript ← buildTranscriptMacInput a.peer.clientHello body 320
      let mac ← cryptoKeyedHash C a.peer.session.keys.tx transcript
      let w ← writeServerHello ⟨192, []⟩ { body with transcriptMac := mac }
      return w.out) = Except.ok payload) :
    ∃ hello, a.Made C hello ∧ payload = hello.encode := by
  simp only [Result.bind_eq_ok, Result.pure_eq, Except.ok.injEq] at h
  obtain ⟨t, ht, mac, hmac, w, hw, rfl⟩ := h
  refine ⟨{ body with transcriptMac := mac }, ⟨hid, hkey, ?_⟩, ?_⟩
  · obtain rfl := buildTranscriptMacInput_eq_ok ht
    unfold cryptoKeyedHash at hmac
    split at hmac
    · cases hmac
    · rename_i m heq
      cases hmac
      exact heq
  · rw [writeServerHello_eq, ByteWriter.writeBytes_fresh] at hw
    split_ifs at hw
    · cases hw
      rfl
    · cases hw

theorem queueServerHello_steps (now : UInt64) (draws : Draws) {a : Admission} {srv : Server}
    (hps : srv.sessions.lookup a.peer.session.connId = some a.peer)
    (ha : ServerEvent.admitted a ∈ srv.history) :
    Steps C N H srv (srv.queueServerHello C N now draws a.peer).2 := by
  unfold queueServerHello
  dsimp only
  split
  · exact .refl
  · rename_i payload heq
    refine .single (.plain now _ _ _ _ _ (Or.inr ⟨a.peer, hps, rfl⟩) fun _ => Or.inr ?_)
    obtain ⟨hello, hmade, hpay⟩ := serverHelloPayload_made rfl rfl heq
    exact ⟨a, hello, ha, hmade, hpay⟩

theorem evictEndpoint_steps (endpoint : Endpoint) (srv : Server) :
    Steps C N H srv (srv.evictEndpoint endpoint) := by
  unfold evictEndpoint
  cases srv.findSessionByEndpoint endpoint with
  | none => exact .refl
  | some existing => exact .single (.evicted _)

theorem foldl_steps {α : Type} {f : Server → α → Server}
    (hf : ∀ srv a, Steps C N H srv (f srv a)) (l : List α) (srv : Server) :
    Steps C N H srv (l.foldl f srv) := by
  induction l generalizing srv with
  | nil => exact .refl
  | cons a l ih => exact (hf srv a).trans (ih (f srv a))

theorem evictStaleSessions_steps (now : UInt64) (srv : Server) :
    Steps C N H srv (srv.evictStaleSessions now) :=
  foldl_steps (fun _ connId => .single (.evicted connId)) _ srv

theorem expireTables_steps (now : UInt64) (srv : Server) :
    Steps C N H srv (srv.expireTables now) := by
  unfold expireTables
  dsimp only
  exact (foldl_steps (fun _ host => .single (.forgot host)) _ srv).trans (.single (.hosts ⟨_, _, rfl⟩))

variable {srv srv' : Server} {source : Endpoint} {hello : ClientHello} {resumed : Bool}
  {now : UInt64} {draws : Draws} {packet : PacketView} {datagram : Bytes} {r : Result Unit × Server}

theorem CreateOutcome.steps (h : CreateOutcome C N source hello resumed now draws srv r)
    (htoken : srv.Admits C N source hello now resumed) (hroom : srv.HasRoom source.hostKey)
    (hH : H source hello now) : Steps C N H srv r.2 := by
  have hseated : ∀ a, srv.Prepares C source hello resumed now draws a →
      Steps C N H srv (srv.greet C N source now draws a).2 := by
    rintro a ⟨keys, hkeys, rfl⟩
    exact (Relation.ReflTransGen.single (.admitted source hello resumed now draws keys htoken hroom
      hH hkeys)).trans
        (queueServerHello_steps now draws (lookup_seat_self ..) (by simp [seat, emplace, log]))
  cases h with
  | keyless e => exact (evictEndpoint_steps source srv).trans (.single .numbered)
  | unanswered a e ha => exact (hseated a ha).trans (.single (.evicted _))
  | answered a ha => exact hseated a ha

theorem HelloOutcome.steps (h : HelloOutcome C N source hello now draws srv r)
    (hH : H source hello now) : Steps C N H srv r.2 := by
  have hchecked : Steps C N H srv (srv.checked source now) := (checked_notes ..).steps
  have hevicted := hchecked.trans (evictStaleSessions_steps now _)
  cases h with
  | twoTokens => exact .refl
  | banned => exact (endpointIsBanned_notes source now srv).steps
  | limited => exact hchecked
  | asked token | askedAgain token => exact hchecked.trans (queueRetry_steps ..)
  | expired => exact hchecked.trans (queuePlainClose_steps ..)
  | full => exact hevicted.trans (queuePlainClose_steps ..)
  | created resumed hpass hadm hfull hroom h =>
    exact hevicted.trans (h.steps (hadm.sameRules ((checked_notes ..).sameTable.rules.trans
      (evictStaleSessions_evicts ..).rules)) hroom hH)

theorem RunsOn.steps {connId : UInt64} {f : Party → Result Unit × Party}
    (h : srv.RunsOn connId f srv') (hf : ∀ p : Party, p.Ran C (f p).2) : Steps C N H srv srv' := by
  rcases h with rfl | ⟨ps, hps, rfl⟩
  · exact .refl
  · exact .single (.ran connId ps _ hps (hf _))

theorem errorChain_steps (source : Endpoint) (connId now : UInt64) (e : Failure) (srv : Server) :
    Steps C N H srv (srv.errorChain C source connId now e) := by
  have h := errorChain_outcome (C := C) source connId now e srv
  have hnote : Steps C N H srv (srv.noteInvalidPacket source now) := (noteInvalidPacket_notes ..).steps
  generalize srv.errorChain C source connId now e = srv' at h
  cases h with
  | ignored => exact .refl
  | noted => exact hnote
  | closed reason =>
    exact hnote.trans ((closeSession_runsOn ..).steps fun p =>
      .steps (Party.closeSession_steps now reason p))

theorem PacketOutcome.steps (h : PacketOutcome C N source packet now draws srv srv')
    (hH : ∀ hello, packet.h.kind = PacketKind.handshake.code →
      readHandshake packet = .ok hello → H source hello now) : Steps C N H srv srv' := by
  have hsession : ∀ ps rc q, srv.sessions.lookup packet.h.connId = some ps →
      (srv.party packet.h.connId ps).handleSessionPacket C now packet = (rc, q) →
      Steps C N H srv (srv.store packet.h.connId ps q) := by
    intro ps rc q hps hq
    have hsteps := Party.handleSessionPacket_steps (C := C) (A := fun _ _ => True) now packet
      (srv.party packet.h.connId ps) rfl fun _ _ _ => Or.inl (by simp)
    rw [hq] at hsteps
    exact .single (.ran _ ps q hps (.steps hsteps))
  cases h with
  | faulty e => exact errorChain_steps ..
  | greeted hello hkind hread h => exact h.steps (hH hello hkind hread)
  | unwelcome hello e hkind hread h =>
    exact (h.steps (hH hello hkind hread)).trans (errorChain_steps ..)
  | nameless e => exact errorChain_steps ..
  | unknown => exact queuePlainClose_steps ..
  | taken ps q hkind hid hps hsource hq => exact hsession ps _ q hps hq
  | failed ps q e hkind hid hps hsource hq =>
    exact (hsession ps _ q hps hq).trans (errorChain_steps ..)

theorem handlePacket_steps (draws : Draws) (srv : Server)
    (hH : ∀ hello, packet.h.kind = PacketKind.handshake.code →
      readHandshake packet = .ok hello → H source hello now) :
    Steps C N H srv (srv.handlePacket C N source packet now draws) := by
  rcases handlePacket_outcome (C := C) (N := N) source packet now draws srv with
    ⟨-, heq⟩ | ⟨-, h⟩
  · rw [heq]
    exact (endpointIsBanned_notes ..).steps
  · exact (past_notes ..).steps.trans (h.steps hH)

/-- A datagram admits at most the hello it holds. -/
theorem receive_steps (draws : Draws) (srv : Server)
    (hH : ∀ packet hello, parsePacket datagram = .ok packet →
      packet.h.kind = PacketKind.handshake.code → readHandshake packet = .ok hello →
      H source hello now) :
    Steps C N H srv (srv.receive C N source datagram now draws) := by
  have hcount : Steps C N H srv (srv.notePreauthReceive source datagram.length now) :=
    .single (.counted ..)
  have h := receive_outcome (C := C) (N := N) source datagram now draws srv
  generalize srv.receive C N source datagram now draws = srv' at h
  cases h with
  | outdated => exact hcount.trans (queuePlainClose_steps ..)
  | garbled => exact hcount.trans (noteInvalidPacket_notes ..).steps
  | known packet hp => exact handlePacket_steps draws srv (hH packet · hp)
  | counted packet hp => exact hcount.trans (handlePacket_steps draws _ (hH packet · hp))

theorem listen_steps (setup : SocketSetup) (secret : Block 32) (srv : Server)
    (hH : ∀ source hello now, ¬ H source hello now) :
    Steps C N H srv (srv.listen setup secret).2 := by
  have hstop : Steps C N H srv srv.stop := .single .stopped
  unfold listen
  cases validateServerConfig srv.config with
  | error e => exact .refl
  | ok u =>
    cases setup with
    | openFailed e => exact hstop
    | bindFailed e => exact hstop.trans (.single (.opened srv.stop.cookieSecret hH))
    | ready => exact hstop.trans (.single (.opened secret hH))

/-- The hellos an act may admit: only those of the datagram it receives. -/
def Act.Hello (a : Act) (source : Endpoint) (hello : ClientHello) (now : UInt64) : Prop :=
  ∃ datagram draws packet, a = .receive source datagram now draws ∧
    parsePacket datagram = .ok packet ∧ packet.h.kind = PacketKind.handshake.code ∧
    readHandshake packet = .ok hello

/-- Every act is a sequence of elementary changes. -/
theorem act_steps (a : Act) (srv : Server) : Steps C N a.Hello srv (srv.act C N a) := by
  cases a with
  | receive source datagram now draws =>
    exact receive_steps draws srv fun packet hello hp hk hr =>
      ⟨datagram, draws, packet, rfl, hp, hk, hr⟩
  | visit now i socket =>
    unfold act
    cases hpkt : srv.net.pending[i]? with
    | none =>
      simp only [hpkt]
      exact .refl
    | some pkt =>
      simp only [hpkt]
      exact .single (.visited hpkt (visitPacket_visited now i pkt socket srv))
  | pumpReliable connId now =>
    exact (onStored_runsOn ..).steps fun p => .steps (Party.pumpReliable_steps now p)
  | housekeep connId now =>
    exact (onStored_runsOn ..).steps fun p => .steps (Party.runHousekeeping_steps now p)
  | expireTables now => exact expireTables_steps now srv
  | evictStale now => exact evictStaleSessions_steps now srv
  | send endpoint connId options type payload now =>
    refine (onPeer_runsOn ..).steps fun p => ?_
    obtain ⟨sent, hsent, -⟩ := Party.send_spec (C := C) options type payload now p
    exact .sends hsent
  | sendPayload endpoint connId data =>
    exact (onPeer_runsOn ..).steps fun p => .steps (Party.sendPayload_steps data p)
  | closePeer endpoint connId now reason =>
    exact (onPeer_runsOn ..).steps fun p => .steps (Party.close_steps now reason p)
  | listen setup secret =>
    refine listen_steps setup secret srv ?_
    rintro source hello now ⟨datagram, draws, packet, ha, -⟩
    cases ha
  | stop => exact .single .stopped

end Server

end SecureCnet
