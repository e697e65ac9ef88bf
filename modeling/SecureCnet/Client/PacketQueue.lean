import SecureCnet.Client.Effects
import SecureCnet.Server.PacketQueue

/-!
# The packet queue of a client

Whatever a client does to its queue and its send budget is done by session code or by a
visit of the flush loop, which takes the head of the queue. A connection is set up and
taken down with an empty queue. So the queue is in order in every state, and each
datagram that leaves is the first of the highest priority.
-/

namespace SecureCnet

namespace Client

variable {C : Crypto} {c c' : Client} {t : UInt64}

/-- One action on the queue, the budget and the wire; the flush loop visits a packet at a time up to
`t`. -/
inductive Touch (t : UInt64) (c : Client) : Client → Prop
  | ran {c' : Client} (hconfig : c'.config = c.config) (hwire : c'.wire = c.wire)
      (h : c.party.Stocks c'.party) : Touch t c c'
  | visited {now : UInt64} (socket : SocketResult) (hnow : now ≤ t) :
      Touch t c (c.visitHead now socket).2

abbrev Touches (t : UInt64) : Client → Client → Prop := Relation.ReflTransGen (Touch t)

/-- What the clock shows during an act. -/
def Act.times : Act → List UInt64
  | .connect _ _ _ _ now visits | .receive _ now visits => now :: visits.map Prod.fst
  | .stop now | .visit now _ | .pumpReliable now | .housekeep now | .send _ _ _ now
  | .close now _ => [now]
  | .sendPayload _ => []

theorem withParty_touches {p : Party} (h : c.party.Stocks p) : c.Touches t (c.withParty p) :=
  .single (.ran rfl rfl ⟨rfl, h.queue, h.budget⟩)

theorem onParty_touches {f : Party → Result Unit × Party} (h : c.party.Stocks (f c.party).2) :
    c.Touches t (c.onParty f).2 :=
  withParty_touches h

theorem failConnection_touches (reason : CloseReason) (c : Client) :
    c.Touches t (c.failConnection reason) := by
  have hdies : c.party.Dies (fun _ _ => True) (c.party.failConnection reason) :=
    Party.dies_of_eq ⟨c.config, rfl⟩ rfl rfl rfl (Or.inl rfl) rfl rfl rfl rfl
  exact withParty_touches hdies.stocks

theorem sendClientHello_touches {visits : Visits} (hvisits : ∀ now ∈ visits.map Prod.fst, now ≤ t)
    (c : Client) : c.Touches t (c.sendClientHello C visits).2 := by
  have hside : c.party.side = .client c.config := rfl
  refine sendClientHello_induction (P := fun r => c.Touches t r.2) (fun c' now socket hnow h => ?_)
    (onParty_touches (Party.queuePacketClient_stocks hside .handshake _ .high))
  refine h.tail (.visited socket ?_)
  rcases hnow with rfl | hmem
  · exact UInt64.zero_le
  · exact hvisits now hmem

theorem RouteOutcome.touches {now : UInt64} {visits : Visits} {packet : PacketView}
    {r : Result Unit × Client} (h : RouteOutcome C now visits packet c r)
    (hvisits : ∀ now ∈ visits.map Prod.fst, now ≤ t) : c.Touches t r.2 := by
  have hkeep : ∀ hello keys rc p, (c.adoptSession keys hello now).party.queueKeepalive C = (rc, p) →
      c.Touches t ((c.adoptSession keys hello now).withParty p) := by
    intro hello keys rc p hq
    have hadopt : c.Touches t (c.adoptSession keys hello now) :=
      .single (.ran rfl rfl (Party.stocks_of_eq rfl rfl rfl))
    have hqueue := Party.queueKeepalive_steps (C := C) (A := fun _ _ => True)
      (c.adoptSession keys hello now).party
    rw [hq] at hqueue
    exact hadopt.trans (withParty_touches hqueue.stocks)
  cases h with
  | refused e | rejected hello e | misclosed e => exact .refl
  | retried token =>
    have hretry : c.Touches t { c with retryToken := some token } :=
      .single (.ran rfl rfl (Party.Stocks.refl _))
    exact hretry.trans (sendClientHello_touches hvisits _)
  | unanswered hello keys e p hoffers hq =>
    exact (hkeep hello keys _ p hq).trans (failConnection_touches ..)
  | answered hello keys p hoffers hq =>
    exact (hkeep hello keys _ p hq).tail (.ran rfl rfl
      (Party.stocks_of_eq rfl rfl (Session.transitionState_budget _ _)))
  | closed reason =>
    exact withParty_touches (Party.remoteClose_steps (C := C) (A := fun _ _ => True) reason
      ⟨c.config, rfl⟩).stocks
  | secure hkind hclose hsecure =>
    have hsteps := Party.handleEstablishedPacket_steps (C := C) (A := fun _ _ => True) now packet
      c.party ⟨c.config, rfl⟩ fun _ _ _ => Or.inl fun _ _ => trivial
    rw [hsecure] at hsteps
    exact withParty_touches hsteps.stocks

theorem receive_touches (datagram : Bytes) (now : UInt64) {visits : Visits}
    (hvisits : ∀ now ∈ visits.map Prod.fst, now ≤ t) (c : Client) :
    c.Touches t (c.receive C datagram now visits) := by
  have hheard : c.Touches t (c.heard datagram) := .single (.ran rfl rfl (Party.Stocks.refl _))
  have h := receive_outcome (C := C) datagram now visits c
  generalize c.receive C datagram now visits = c' at h
  cases h with
  | garbled e reason => exact hheard.trans (failConnection_touches ..)
  | routed hp hroute hchain =>
    have hrouted := hheard.trans (hroute.touches hvisits)
    cases hchain with
    | done | ignored => exact hrouted
    | failed e c' reason => exact hrouted.trans (failConnection_touches ..)

theorem act_touches {a : Act} (hlasting : a.lasting = true) (htimes : ∀ now ∈ a.times, now ≤ t)
    (c : Client) : c.Touches t (c.act C a) := by
  have hran : ∀ {f : Party → Result Unit × Party},
      Party.Steps C (fun _ _ => True) c.party (f c.party).2 → c.Touches t (c.onParty f).2 :=
    fun h => onParty_touches h.stocks
  cases a with
  | connect server setup seed nonce now visits => cases hlasting
  | stop now => cases hlasting
  | visit now socket => exact .single (.visited socket (htimes now List.mem_cons_self))
  | pumpReliable now => exact hran (Party.pumpReliable_steps now _)
  | receive datagram now visits =>
    unfold act
    dsimp only
    split_ifs
    · exact receive_touches datagram now (fun now' h => htimes now' (List.mem_cons_of_mem _ h)) c
    · exact .refl
  | housekeep now => exact hran (Party.runHousekeeping_steps now _)
  | send options type payload now =>
    obtain ⟨sent, hsent, -⟩ := Party.send_spec (C := C) options type payload now c.party
    exact onParty_touches hsent.stocks
  | sendPayload data => exact hran (Party.sendPayload_steps data _)
  | close now reason => exact hran (Party.close_steps now reason _)

/-! ### Runs -/

/-- The states of a client, those within its operations included. -/
inductive Reached (C : Crypto) (config : ClientConfig) : Client → Prop
  | created (now : UInt64) : Reached C config (create config now)
  | touched {c c' : Client} {t : UInt64} (h : Reached C config c) (htouch : c.Touch t c') :
      Reached C config c'
  | emptied {c c' : Client} (h : Reached C config c) (hconfig : c'.config = c.config)
      (hwire : c'.wire = c.wire) (hpending : c'.net.pending = [])
      (hbytes : c'.net.pendingBytes = 0) : Reached C config c'

variable {config : ClientConfig}

theorem Reached.touches (h : Reached C config c) (htouches : c.Touches t c') :
    Reached C config c' := by
  induction htouches with
  | refl => exact h
  | tail _ htouch ih => exact ih.touched htouch

theorem le_last (now : UInt64) : now ≤ UInt64.ofNat (2 ^ 64 - 1) :=
  UInt64.le_iff_toNat_le.mpr (Nat.le_of_lt_succ now.toNat_lt)

theorem Reached.connect (h : Reached C config c) (server : Endpoint) (setup : SocketSetup)
    (seed : Block 32) (nonce : Block 16) (now : UInt64) (visits : Visits) :
    Reached C config (c.connect C server setup seed nonce now visits).2 := by
  have hconnect := connect_outcome (C := C) server setup seed nonce now visits c
  generalize (c.connect C server setup seed nonce now visits).2 = c' at hconnect
  cases hconnect with
  | refused => exact h
  | halted hr => exact h.emptied hr.config hr.wire hr.pending hr.pendingBytes
  | @begun c₀ hr =>
    have hbegun : Reached C config (c₀.beginHandshake C seed nonce now) :=
      h.emptied hr.config hr.wire hr.pending hr.pendingBytes
    exact hbegun.touches (sendClientHello_touches (fun now _ => le_last now) _)

theorem Reached.act (h : Reached C config c) (a : Act) : Reached C config (c.act C a) := by
  cases a with
  | connect server setup seed nonce now visits =>
    exact h.connect server setup seed nonce now visits
  | stop now => exact h.emptied rfl rfl rfl rfl
  | _ => exact h.touches (act_touches rfl (fun now _ => le_last now) c)

theorem reached_acts (C : Crypto) (config : ClientConfig) (now : UInt64) (l : List Act) :
    Reached C config ((create config now).acts C l) := by
  induction l using List.reverseRecOn with
  | nil => exact .created now
  | append_singleton l a ih =>
    rw [acts_append]
    exact ih.act a

theorem Reached.config_eq (h : Reached C config c) : c.config = config := by
  induction h with
  | created now => rfl
  | touched _ htouch ih =>
    cases htouch with
    | ran hconfig _ _ => exact hconfig.trans ih
    | @visited now socket hnow => exact (visitHead_quiet now socket _).config.trans ih
  | emptied _ hconfig _ _ _ ih => exact hconfig.trans ih

theorem visitHead_cases (now : UInt64) (socket : SocketResult) (c : Client) :
    ((c.visitHead now socket).2.net = c.net ∧ (c.visitHead now socket).2.wire = c.wire) ∨
      ∃ pkt, c.net.pending[0]? = some pkt ∧
        (c.visitHead now socket).2.net = c.net.removeAt 0 pkt.bytes.length ∧
        (c.visitHead now socket).2.wire = c.wire ++ [pkt.bytes] := by
  unfold visitHead
  dsimp only
  split <;> rename_i heq
  · obtain ⟨pkt, hpkt, rfl, -, rfl⟩ := Party.flushAt_eq_some heq
    exact Or.inr ⟨pkt, hpkt, rfl, rfl⟩
  · exact Or.inl ⟨(Party.flushAt_none heq).2, rfl⟩

theorem Reached.inOrder (h : Reached C config c) : c.net.InOrder config.maxPendingPackets := by
  induction h with
  | created now => exact Transport.inOrder_nil rfl rfl
  | @touched c c' t h htouch ih =>
    cases htouch with
    | ran _ _ hstocks =>
      have hqueue := hstocks.queue
      rw [show c.party.side.maxPendingPackets = config.maxPendingPackets by
        rw [← h.config_eq]; rfl] at hqueue
      exact hqueue.inOrder ih
    | @visited now socket _ =>
      rcases c.visitHead_cases now socket with ⟨hnet, -⟩ | ⟨pkt, hpkt, hnet, -⟩
      · rw [hnet]
        exact ih
      · rw [hnet]
        exact ih.removeAt hpkt
  | emptied _ _ _ hpending hbytes => exact Transport.inOrder_nil hpending hbytes

end Client

/-- The queue of every client and every server is in order, and a client sends the packet that is
served before all others. -/
theorem queues_in_order (C : Crypto) (N : InetNtop) :
    (∀ (config : ClientConfig) (now : UInt64) (l : List Client.Act),
      Client.Reached C config ((Client.create config now).acts C l)) ∧
    (∀ config c, Client.Reached C config c → c.net.InOrder config.maxPendingPackets ∧
      ∀ now socket datagram, (c.visitHead now socket).2.wire = c.wire ++ [datagram] →
        ∃ pkt rest, c.net.pending = pkt :: rest ∧ pkt.bytes = datagram ∧
          ∀ other ∈ rest, pkt.Before other) ∧
    ∀ (config : ServerConfig) (l : List Server.Act),
      (({ config } : Server).acts C N l).net.InOrder config.maxPendingPackets := by
  refine ⟨Client.reached_acts C, fun config c hreached => ?_, Server.inOrder_acts⟩
  refine ⟨hreached.inOrder, fun now socket datagram hsent => ?_⟩
  rcases c.visitHead_cases now socket with ⟨-, hwire⟩ | ⟨pkt, hpkt, -, hwire⟩
  · rw [hwire] at hsent
    simp at hsent
  · obtain rfl : pkt.bytes = datagram := by simpa [hwire] using hsent
    have hserved := hreached.inOrder.served
    cases hpending : c.net.pending with
    | nil =>
      rw [hpending] at hpkt
      cases hpkt
    | cons head rest =>
      rw [hpending] at hpkt hserved
      obtain rfl := Option.some.inj hpkt
      exact ⟨head, rest, rfl, rfl, (List.pairwise_cons.mp hserved).1⟩

/-- A client whose hello does not leave is closed. -/
def Client.givingUp : Client :=
  (Client.create {} 0).acts .standIn
    [.connect loopback .ready (Block.zero 32) (Block.zero 16) 1000 [(1000, .wouldBlock)],
      .close 1001 .normal]

/-- Of the hello and the close packet, which have one priority, the hello leaves first. -/
theorem queues_in_order_givingUp :
    Client.givingUp.net.pending.map (fun pkt => (pkt.priority, pkt.arrival)) =
        [(.high, 0), (.high, 1)] ∧
      (Client.givingUp.visitHead 1002 .sent).2.wire.length = 1 ∧
      ∃ pkt rest, Client.givingUp.net.pending = pkt :: rest ∧
        [pkt.bytes] = (Client.givingUp.visitHead 1002 .sent).2.wire ∧
        ∀ other ∈ rest, pkt.Before other := by
  have hqueues := queues_in_order .standIn .standard
  obtain ⟨-, hhead⟩ := hqueues.2.1 {} Client.givingUp (hqueues.1 {} 0 _)
  have hsent : ∀ datagram, [datagram] = (Client.givingUp.visitHead 1002 .sent).2.wire →
      (Client.givingUp.visitHead 1002 .sent).2.wire = Client.givingUp.wire ++ [datagram] := by
    intro datagram h
    rw [← h]
    have hnone : Client.givingUp.wire = [] := by decide +kernel
    rw [hnone]
    rfl
  have hone : (Client.givingUp.visitHead 1002 .sent).2.wire.length = 1 := by decide +kernel
  obtain ⟨datagram, hwire⟩ := List.length_eq_one_iff.mp hone
  obtain ⟨pkt, rest, hpending, rfl, hbefore⟩ := hhead 1002 .sent datagram (hsent _ hwire.symm)
  exact ⟨by decide +kernel, hone, pkt, rest, hpending, hwire.symm, hbefore⟩

end SecureCnet
