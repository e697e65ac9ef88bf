import SecureCnet.Server.Callbacks
import SecureCnet.World.Agreement

/-!
# Nonces are never used twice

A packet number is drawn before the cipher is called with it, and no number is drawn
twice before the counter wraps. The nonces of a session are those of increasing
numbers, whatever connection id they are combined with, so they differ.
-/

namespace SecureCnet

/-- The nonce of a call of `crypto_aead_encrypt`. -/
def Event.nonce : Event → Option (Block 24)
  | .encrypted _ nonce => some nonce
  | _ => none

theorem Event.Quiet.not_packetEvent {A : Channel → UInt64 → Prop} {e : Event} (h : e.Quiet A) :
    ¬ Party.PacketEvent e := by
  rintro (rfl | ⟨key, nonce, rfl⟩) <;> exact h

namespace Session

def nonces (s : Session) : List (Block 24) := s.trace.filterMap Event.nonce

/-- Connection ids and increasing draws below `n` that the nonces were made from. -/
def MadeFrom (nonces : List (Block 24)) (n : ℕ) : Prop :=
  ∃ made : List (UInt64 × ℕ), (made.map Prod.snd).Pairwise (· < ·) ∧ (∀ m ∈ made, m.2 < n) ∧
    nonces = made.map fun m => cryptoMakePacketNonce m.1 (UInt64.ofNat (m.2 + 1))

/-- Packet numbers count the draws, and each nonce belongs to a draw of its own. -/
structure Sequential (s : Session) : Prop where
  next : s.sendSeq = UInt64.ofNat (s.drawn .packet + 1)
  nonces : MadeFrom s.nonces (s.drawn .packet)

variable {s s' : Session} {n : ℕ} {nonces : List (Block 24)}

theorem MadeFrom.mono {n' : ℕ} (h : MadeFrom nonces n) (hn : n ≤ n') : MadeFrom nonces n' := by
  obtain ⟨made, hinc, hlt, heq⟩ := h
  exact ⟨made, hinc, fun m hm => (hlt m hm).trans_le hn, heq⟩

/-- The next draw makes one nonce more. -/
theorem MadeFrom.concat (h : MadeFrom nonces n) (connId : UInt64) :
    MadeFrom (nonces ++ [cryptoMakePacketNonce connId (UInt64.ofNat (n + 1))]) (n + 1) := by
  obtain ⟨made, hinc, hlt, rfl⟩ := h
  refine ⟨made ++ [(connId, n)], ?_, ?_, by rw [List.map_append]; rfl⟩
  · rw [List.map_append, List.pairwise_append]
    refine ⟨hinc, List.pairwise_singleton _ _, ?_⟩
    intro a ha b hb
    obtain ⟨m, hm, rfl⟩ := List.mem_map.mp ha
    obtain rfl : b = n := by simpa using hb
    exact hlt m hm
  · intro m hm
    rcases List.mem_append.mp hm with hold | hnew
    · exact (hlt m hold).trans (Nat.lt_succ_self n)
    · obtain rfl := List.mem_singleton.mp hnew
      exact Nat.lt_succ_self n

theorem MadeFrom.nodup (h : MadeFrom nonces n) (hn : n < 2 ^ 64) : nonces.Nodup := by
  obtain ⟨made, hinc, hlt, rfl⟩ := h
  rw [List.pairwise_map] at hinc
  refine List.pairwise_map.mpr (hinc.imp_of_mem ?_)
  intro a b ha hb hab heq
  have hseq := congrArg UInt64.toNat (cryptoMakePacketNonce_inj heq).2
  have hlt_a := hlt a ha
  have hlt_b := hlt b hb
  rw [UInt64.toNat_ofNat', UInt64.toNat_ofNat', Nat.mod_eq_of_lt (by omega),
    Nat.mod_eq_of_lt (by omega)] at hseq
  omega

theorem Sequential.nodup (h : s.Sequential) (hfew : s.drawn .packet < 2 ^ 64) : s.nonces.Nodup :=
  h.nonces.nodup hfew

theorem sequential_of_fresh (hseq : s.sendSeq = 1) (ht : s.trace = []) : s.Sequential := by
  have hdrawn : s.drawn .packet = 0 := by rw [drawn, ht, List.count_nil]
  have hnonces : s.nonces = [] := by rw [nonces, ht, List.filterMap_nil]
  refine ⟨by rw [hseq, hdrawn]; rfl, ?_⟩
  rw [hnonces]
  exact ⟨[], .nil, by simp, rfl⟩

/-- Events other than those of queueing a packet change nothing. -/
theorem Sequential.append (h : s.Sequential) {es : List Event} (hseq : s'.sendSeq = s.sendSeq)
    (ht : s'.trace = s.trace ++ es) (hes : ∀ e ∈ es, ¬ Party.PacketEvent e) : s'.Sequential := by
  have hdrawn : s'.drawn .packet = s.drawn .packet := by
    rw [drawn, drawn, ht, List.count_append, Nat.add_eq_left, List.count_eq_zero]
    exact fun hmem => hes _ hmem (Or.inl rfl)
  have hnonces : s'.nonces = s.nonces := by
    rw [Session.nonces, Session.nonces, ht, List.filterMap_append]
    refine List.append_right_eq_self.mpr (List.filterMap_eq_nil_iff.mpr fun e he => ?_)
    cases e with
    | encrypted key nonce => exact absurd (Or.inr ⟨key, nonce, rfl⟩) (hes _ he)
    | _ => rfl
  exact ⟨by rw [hseq, hdrawn]; exact h.next, by rw [hnonces, hdrawn]; exact h.nonces⟩

theorem Sequential.congr (h : s.Sequential) (hseq : s'.sendSeq = s.sendSeq)
    (ht : s'.trace = s.trace) : s'.Sequential :=
  h.append hseq (ht.trans (List.append_nil _).symm) (by simp)

theorem Sequential.log (h : s.Sequential) {e : Event} (he : ¬ Party.PacketEvent e) :
    (s.log e).Sequential :=
  h.append rfl rfl (List.forall_mem_singleton.mpr he)

theorem Sequential.transitionState (h : s.Sequential) (next : ConnectionState) :
    (s.transitionState next).Sequential := by
  unfold Session.transitionState
  split_ifs
  · exact h
  · exact (h.log (by simp [Party.PacketEvent])).congr rfl rfl

theorem Tidy.sequential {A : Channel → UInt64 → Prop} (ht : s.Tidy A s') (h : s.Sequential) :
    s'.Sequential := by
  obtain ⟨es, htrace, hquiet⟩ := ht.trace
  exact h.append ht.sendSeq htrace fun e he => (hquiet e he).not_packetEvent

theorem drawn_drawPacketNumber (s : Session) :
    s.drawPacketNumber.drawn .packet = s.drawn .packet + 1 := by
  simp [drawPacketNumber, drawn, Session.log]

theorem Sequential.next_succ (h : s.Sequential) :
    s.sendSeq + 1 = UInt64.ofNat (s.drawn .packet + 1 + 1) := by
  rw [h.next, ← UInt64.ofNat_one, ← UInt64.ofNat_add]

theorem Sequential.drawPacketNumber (h : s.Sequential) : s.drawPacketNumber.Sequential := by
  have hnonces : s.drawPacketNumber.nonces = s.nonces := by
    simp [Session.nonces, Session.drawPacketNumber, Session.log, Event.nonce]
  refine ⟨?_, ?_⟩
  · rw [drawn_drawPacketNumber]
    exact h.next_succ
  · rw [hnonces, drawn_drawPacketNumber]
    exact h.nonces.mono (Nat.le_succ _)

end Session

namespace Party

variable {C : Crypto} {A : Channel → UInt64 → Prop} {p p' : Party} {kind : PacketKind}
  {payload : Bytes} {priority : SendPriority} {rc : Result Unit}

theorem buildPacket_congr {C' : Crypto} (kind : PacketKind) (payload : Bytes) {connId seq : UInt64}
    {key : Block 32}
    (h : C.aeadEncrypt key (cryptoMakePacketNonce connId seq) =
      C'.aeadEncrypt key (cryptoMakePacketNonce connId seq)) :
    buildPacket C kind true payload connId seq key =
      buildPacket C' kind true payload connId seq key := by
  unfold buildPacket cryptoAeadEncrypt
  rw [h]

/-- The record has every call of the cipher: one that differs from it in other calls only leads to
the same, also when the packet is then dropped. -/
theorem queueSecure_recorded {C' : Crypto}
    (h : ∀ key nonce, Event.encrypted key nonce ∈
      (p.queueSecure C kind payload priority).2.session.trace.drop p.session.trace.length →
        C.aeadEncrypt key nonce = C'.aeadEncrypt key nonce) :
    p.queueSecure C kind payload priority = p.queueSecure C' kind payload priority := by
  have hcall : Event.encrypted p.session.keys.tx
      (cryptoMakePacketNonce p.session.connId p.session.sendSeq) ∈
        p.sealing.session.trace.drop p.session.trace.length := by
    simp [sealing_eq]
  unfold queueSecure at h ⊢
  cases hs : p.side with
  | client config =>
    simp only [hs, queuePacketClient] at h ⊢
    split_ifs at h ⊢
    · rfl
    · rfl
    · rfl
    · simp only [sealAndEnqueue, buildPacket_congr kind payload (h _ _ hcall)]
  | server config =>
    simp only [hs, queuePacketServer] at h ⊢
    split_ifs at h ⊢
    · rfl
    · rfl
    · simp only [sealAndEnqueue, buildPacket_congr kind payload (h _ _ hcall)]

theorem sealing_sequential (h : p.session.Sequential) : p.sealing.session.Sequential := by
  have hdrawn : p.sealing.session.drawn .packet = p.session.drawn .packet + 1 := by
    simp [sealing_eq, Session.drawn]
  have hnonces : p.sealing.session.nonces = p.session.nonces ++
      [cryptoMakePacketNonce p.session.connId (UInt64.ofNat (p.session.drawn .packet + 1))] := by
    rw [← h.next]
    simp [sealing_eq, Session.nonces, Event.nonce, List.filterMap_cons]
  refine ⟨?_, ?_⟩
  · rw [hdrawn]
    exact h.next_succ
  · rw [hdrawn, hnonces]
    exact h.nonces.concat _

theorem Queued.sequential (hq : Queued C p kind payload priority rc p')
    (h : p.session.Sequential) : p'.session.Sequential := by
  cases hq with
  | refused e => exact h
  | burned e => exact h.drawPacketNumber
  | dropped e => exact sealing_sequential h
  | queued bytes hbuild hkeys => exact sealing_sequential h

theorem Change.sequential (hc : Change C A p p') (h : p.session.Sequential) :
    p'.session.Sequential := by
  cases hc with
  | session s ht => exact ht.sequential h
  | dies _ hd =>
    obtain ⟨es, htrace, hquiet⟩ := hd.trace
    exact h.append hd.sendSeq htrace fun e he =>
      (hquiet e he).not_packetEvent
  | ends config hside hstate => exact h.transitionState .closed
  | queue _ kind payload priority rc hq hk hm => exact hq.sequential h
  | ack q ch id hq => exact (hq.sequential h).log (by simp [PacketEvent])
  | plain _ hq =>
    obtain ⟨s, net, rfl, rfl | rfl, -⟩ := hq.shape
    · exact h
    · exact h.drawPacketNumber

theorem Steps.sequential (hs : Steps C A p p') (h : p.session.Sequential) :
    p'.session.Sequential := by
  induction hs with
  | refl => exact h
  | tail _ hc ih => exact hc.sequential ih

theorem Sending.sequential {msgs : List MsgView} (hs : Sending C priority p msgs p') :
    p.session.Sequential → p'.session.Sequential := by
  refine hs.rule (R := fun p q => p.session.Sequential → q.session.Sequential) (fun _ => id)
    (fun h h' => h' ∘ h) ?_ Queued.sequential
  rintro p s ⟨_, _, _, _, _, es, rfl, hes⟩ h
  refine h.append rfl rfl fun e he => ?_
  obtain ⟨k, hk, rfl⟩ := hes e he
  simpa [PacketEvent] using hk

theorem Ran.sequential (hr : p.Ran C p') (h : p.session.Sequential) : p'.session.Sequential := by
  cases hr with
  | steps hs => exact hs.sequential h
  | sends hs => exact hs.sequential h

theorem call_sequential (h : p.session.Sequential) (k : Call) :
    (p.call C k).session.Sequential := by
  rcases call_cases (C := C) p k with hran | ⟨now, i, socket, heq⟩
  · exact hran.sequential h
  · obtain ⟨budget, lastSendMs, net, hshape, -⟩ := flushAt_shape now i socket p
    rw [heq, hshape]
    exact h.congr rfl rfl

end Party

namespace Client

variable {C : Crypto} {H : ServerHello → SessionKeys → Prop} {c c' : Client}

theorem Change.sequential (hc : Change C H c c') (h : c.session.Sequential) :
    c'.session.Sequential := by
  cases hc with
  | ran p hr hrank => exact hr.sequential (p := c.party) h
  | visited now socket =>
    obtain ⟨budget, lastSendMs, net, wire, hshape, -⟩ := c.visitHead_shape now socket
    rw [hshape]
    exact h.congr rfl rfl
  | expired now => exact h.congr rfl rfl
  | greeted hstate =>
    obtain ⟨s, net, hshape, rfl | rfl, -⟩ := greeted_shape (C := C) c
    · rw [hshape]
      exact h
    · rw [hshape]
      exact h.drawPacketNumber
  | retried token hstate => exact h
  | adopted hello keys now p hstate hH hs hrank =>
    exact hs.sequential (p := (c.adoptSession keys hello now).party) (h.congr rfl rfl)

theorem Steps.sequential (hs : Steps C H c c') (h : c.session.Sequential) :
    c'.session.Sequential := by
  induction hs with
  | refl => exact h
  | tail _ hc ih => exact hc.sequential ih

theorem stop_sequential (now : UInt64) (c : Client) : (c.stop now).session.Sequential := by
  have hreset : (resetSession now { c with
      net := { c.net with sockOpen := false } }).session.Sequential :=
    Session.sequential_of_fresh rfl rfl
  exact (hreset.transitionState .idle).congr rfl rfl

theorem beginHandshake_sequential (h : c.session.Sequential) (seed : Block 32) (nonce : Block 16)
    (now : UInt64) : (c.beginHandshake C seed nonce now).session.Sequential := by
  have hkeyed : Session.Sequential
      { c.session with ephemeral := C.kxKeypair seed, startedMs := now } := h.congr rfl rfl
  exact hkeyed.transitionState .handshaking

theorem connect_sequential (h : c.session.Sequential) (server : Endpoint) (setup : SocketSetup)
    (seed : Block 32) (nonce : Block 16) (now : UInt64) (visits : Visits) :
    (c.connect C server setup seed nonce now visits).2.session.Sequential := by
  have hconnect := connect_outcome (C := C) server setup seed nonce now visits c
  generalize (c.connect C server setup seed nonce now visits).2 = c' at hconnect
  cases hconnect with
  | refused => exact h
  | halted hr => exact Session.sequential_of_fresh hr.sendSeq hr.trace
  | begun hr =>
    refine (sendClientHello_steps (H := fun _ _ => False) visits
      (Session.transitionState_state .handshaking _)).sequential ?_
    exact beginHandshake_sequential (Session.sequential_of_fresh hr.sendSeq hr.trace) seed nonce now

theorem act_sequential (hc : c.Tame) (h : c.session.Sequential) (a : Act) :
    (c.act C a).session.Sequential := by
  cases ha : a.lasting with
  | true =>
    refine (act_steps (C := C) hc ha).sequential ?_
    rw [noting_eq]
    exact h
  | false =>
    cases a with
    | connect server setup seed nonce now visits => exact connect_sequential h ..
    | stop now => exact stop_sequential now c
    | _ => cases ha

theorem acts_sequential (hc : c.Tame) (h : c.session.Sequential) (l : List Act) :
    (c.acts C l).session.Sequential := by
  induction l generalizing c with
  | nil => exact h
  | cons a l ih => exact ih (act_tame hc a) (act_sequential hc h a)

end Client

namespace Server

variable {C : Crypto} {N : InetNtop}

theorem admission_sequential (source : Endpoint) (hello : ClientHello) (resumed : Bool)
    (now : UInt64) (draws : Draws) (keys : SessionKeys) (srv : Server) :
    (srv.admission C source hello resumed now draws keys).peer.session.Sequential := by
  have hfresh : ({} : Session).Sequential := Session.sequential_of_fresh rfl rfl
  have hlogged : ∀ e ∈ [Event.stateChanged .idle .handshaking], ¬Party.PacketEvent e := by
    simp [Party.PacketEvent]
  refine hfresh.append ?_ (admission_trace source hello resumed now draws keys srv) hlogged
  simp [admission, keyedSession, newPeerSession, Session.transitionState]

theorem sequential_acts (config : ServerConfig) (l : List Act) {connId : UInt64}
    {ps : PeerSession}
    (hps : (({ config } : Server).acts C N l).sessions.lookup connId = some ps) :
    ps.session.Sequential :=
  lookup_acts_induction (P := fun ps => ps.session.Sequential)
    (fun srv source hello resumed now draws keys _ =>
      admission_sequential source hello resumed now draws keys srv)
    (fun _ _ k _ hsession h => Party.call_sequential (hsession ▸ h) k) l hps

end Server

/-- In every run of a server and in every run of a client, a session that has drawn fewer than
2^64 packet numbers has called the cipher with a different nonce each time. Calls of
`queue_packet` that draw a number and then fail are among those counted. -/
theorem nonces_unique (C : Crypto) (N : InetNtop) :
    (∀ (config : ServerConfig) (l : List Server.Act) (connId : UInt64) (ps : PeerSession),
      (({ config } : Server).acts C N l).sessions.lookup connId = some ps →
      ps.session.drawn .packet < 2 ^ 64 → ps.session.nonces.Nodup) ∧
    ∀ (config : ClientConfig) (now : UInt64) (l : List Client.Act),
      ((Client.create config now).acts C l).session.drawn .packet < 2 ^ 64 →
      ((Client.create config now).acts C l).session.nonces.Nodup := by
  refine ⟨?_, ?_⟩
  · intro config l connId ps hps hfew
    exact (Server.sequential_acts config l hps).nodup hfew
  · intro config now l hfew
    have hfresh : (Client.create config now).session.Sequential :=
      Session.sequential_of_fresh rfl rfl
    exact (Client.acts_sequential (Client.create_tame config now) hfresh l).nodup hfew

/-- The session 7 of `announced` sends a payload and closes. -/
def Server.parting : List Server.Act :=
  announced ++ [.sendPayload loopback 7 [42], .closePeer loopback 7 1206 .normal]

def Server.partingSession : PeerSession :=
  ((({} : Server).acts .checksum .standard parting).sessions.lookup 7).get (by decide +kernel)

/-- A client answers the retry, takes over the server hello and sends two payloads. -/
def Client.talking : List Client.Act :=
  [.connect loopback .ready (Block.zero 32) (Block.zero 16) 1000 [(1000, .sent)],
    .receive (World.fromServer World.retry 0) 1002 [(1002, .sent)], World.accept,
    .sendPayload [1], .sendPayload [1]]

theorem nonces_unique_talking :
    (Server.partingSession.session.nonces.length = 2 ∧
      Server.partingSession.session.nonces.Nodup) ∧
    ((Client.create {} 0).acts .honest Client.talking).session.nonces.length = 3 ∧
      ((Client.create {} 0).acts .honest Client.talking).session.nonces.Nodup := by
  refine ⟨⟨by decide +kernel, ?_⟩, by decide +kernel, ?_⟩
  · exact (nonces_unique .checksum .standard).1 {} Server.parting 7 _ (Option.some_get _).symm
      (by decide +kernel)
  · exact (nonces_unique .honest .standard).2 {} 0 Client.talking (by decide +kernel)

end SecureCnet
