import SecureCnet.Server.Drain
import SecureCnet.Session.PacketQueue

/-!
# The packet queue of a server

In every state a server reaches its packet queue is in the order of service, within its
limit and correctly counted.
-/

namespace SecureCnet

namespace Server

variable {C : Crypto} {N : InetNtop} {srv srv' : Server} {now : UInt64}
  {H : Endpoint → ClientHello → UInt64 → Prop}

/-- A packet that is visited stays, leaves, or goes with its session. -/
theorem Visited.inOrder {i : ℕ} {pkt : PendingPacket} {maxPending : UInt32}
    (h : srv.Visited now i pkt srv') (hpkt : srv.net.pending[i]? = some pkt)
    (hsrv : srv.net.InOrder maxPending) : srv'.net.InOrder maxPending := by
  cases h with
  | refused => exact hsrv
  | sent howner =>
    have hnoted : (srv.net.notePreauthSend pkt.dest (UInt64.ofNat pkt.bytes.length)
        now).InOrder maxPending := hsrv.congr rfl rfl rfl
    exact hnoted.removeAt hpkt
  | dropped howner hnone => exact hsrv.removeAt hpkt
  | stayed ps p socket howner hps hflush =>
    have hnet : p.net = srv.net := (Party.flushAt_none hflush).2
    exact hsrv.congr (congrArg _ hnet) (congrArg _ hnet) (congrArg _ hnet)
  | left ps p socket bytes howner hps hflush =>
    obtain ⟨pkt', hpkt', -, -, rfl⟩ := Party.flushAt_eq_some hflush
    obtain rfl := Option.some.inj (hpkt'.symm.trans hpkt)
    obtain ⟨preauth, hnoted⟩ := Party.noteSent_eq now pkt'.bytes.length
      ((srv.party pkt'.ownerConnId ps).mapBudget (SendBudget.refillSendBudget now))
    have hsame : Transport.InOrder maxPending { srv.net with preauth } := hsrv.congr rfl rfl rfl
    unfold Party.packetSent
    rw [hnoted]
    exact hsame.removeAt hpkt

theorem Change.inOrder (h : Change C N H srv srv')
    (hsrv : srv.net.InOrder srv.config.maxPendingPackets) :
    srv'.net.InOrder srv.config.maxPendingPackets := by
  cases h with
  | hosts h =>
    rw [h.net]
    exact hsrv
  | counted endpoint bytes now => exact hsrv.congr rfl rfl rfl
  | plain now dest kind payload connId owner =>
    have hnumbered : Transport.InOrder srv.config.maxPendingPackets
        { srv.net with statelessSeq := srv.net.statelessSeq + 1 } := hsrv.congr rfl rfl rfl
    exact (queuePlainPacket_fills ..).inOrder hnumbered
  | ran connId ps p hps h => exact h.stocks.queue.inOrder hsrv
  | visited hpkt h => exact h.inOrder hpkt hsrv
  | evicted connId =>
    rw [(evictSession_evicts connId srv).net]
    exact hsrv
  | numbered => exact hsrv
  | admitted source =>
    change (srv.evictEndpoint source).net.InOrder _
    rw [(evictEndpoint_evicts source srv).net]
    exact hsrv
  | forgot host => exact hsrv.congr rfl rfl rfl
  | stopped => exact Transport.inOrder_nil rfl rfl
  | opened secret => exact hsrv.congr rfl rfl rfl

theorem Steps.inOrder (h : Steps C N H srv srv')
    (hsrv : srv.net.InOrder srv.config.maxPendingPackets) :
    srv'.net.InOrder srv.config.maxPendingPackets := by
  induction h with
  | refl => exact hsrv
  | tail hsteps hchange ih =>
    rw [← Steps.config_eq hsteps] at ih ⊢
    exact hchange.inOrder ih

theorem inOrder_acts (config : ServerConfig) (l : List Act) :
    (({ config } : Server).acts C N l).net.InOrder config.maxPendingPackets := by
  induction l using List.reverseRecOn with
  | nil => exact Transport.inOrder_nil rfl rfl
  | append_singleton l a ih =>
    have hconfig : (({ config } : Server).acts C N l).config = config := acts_config l _
    rw [acts_append, acts_cons, acts_nil]
    generalize ({ config } : Server).acts C N l = srv at ih hconfig
    subst hconfig
    exact (act_steps a srv).inOrder ih

end Server

end SecureCnet
