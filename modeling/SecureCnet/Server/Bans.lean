import SecureCnet.Server.Datagram

/-!
# Banned hosts

A host that sent too many invalid packets is banned for a while. `handle_packet` drops
what it sends before any callback is called. A datagram of another protocol version does
not come that far: it is answered from `pump_receive`, whether its host is banned or not.
-/

namespace SecureCnet

namespace Server

variable {C : Crypto} {N : InetNtop} {srv : Server} {source : Endpoint} {datagram : Bytes}
  {now : UInt64}

/-- The ban of the host of an endpoint is not over. -/
def Banned (source : Endpoint) (now : UInt64) (srv : Server) : Prop :=
  now < (srv.abuseStateFor source).bannedUntilMs

/-- The queue and the sessions stay as they are and nobody is called: the callbacks of a session
are in its trace, and `_on_packet` is called outside of a session for handshake packets. -/
structure Ignores (srv srv' : Server) : Prop where
  pending : srv'.net.pending = srv.net.pending
  sessions : srv'.sessions = srv.sessions
  endpointToConn : srv'.endpointToConn = srv.endpointToConn
  silent : srv'.onPacket = srv.onPacket

def plainCloseBytes : ℕ := NetConfig.packetHeaderBytes + 2

/-- There is room in the queue for a close frame, and the bytes of the host, with those just
received, pay for it. -/
def affordsClose (source : Endpoint) (received : UInt64) (srv : Server) : Bool :=
  let state := srv.net.preauthStateFor source.hostKey
  srv.net.pending.length < srv.config.maxPendingPackets.toNat &&
    state.bytesSent + UInt64.ofNat plainCloseBytes ≤
      (state.bytesReceived + received) * srv.config.abuse.antiAmplificationFactor.toUInt64 +
        srv.config.abuse.antiAmplificationSlackBytes.toUInt64

/-- A datagram of another protocol version that is answered. -/
def answersVersion (source : Endpoint) (datagram : Bytes) (srv : Server) : Bool :=
  (match parsePacket datagram with
    | .error e => e.code = .unsupportedVersion
    | .ok _ => false) && srv.affordsClose source (UInt64.ofNat datagram.length)

theorem Banned.endpointIsBanned (h : srv.Banned source now) :
    (srv.endpointIsBanned source now).1 = true := decide_eq_true h

theorem Banned.handlePacket (h : srv.Banned source now) (packet : PacketView) (draws : Draws) :
    srv.handlePacket C N source packet now draws = (srv.endpointIsBanned source now).2 := by
  unfold Server.handlePacket
  exact if_pos h.endpointIsBanned

theorem Banned.noteInvalidPacket (h : srv.Banned source now) :
    srv.noteInvalidPacket source now = srv.setAbuseState source (srv.abuseStateFor source) :=
  if_pos h

/-- A packet in the clear is queued exactly when it is affordable. -/
theorem queuePlainPacket_pending {payload : Bytes}
    (hlen : payload.length ≤ NetConfig.maxPayloadBytes) (config : ServerConfig) (dest : Endpoint)
    (kind : PacketKind) (connId seq : UInt64) (priority : SendPriority) (owner : UInt64)
    (net : Transport) :
    (net.queuePlainPacket C config now dest kind payload connId seq priority owner).2.pending =
        net.pending ↔
      ¬(net.pending.length < config.maxPendingPackets.toNat ∧
        (net.preauthStateFor dest.hostKey).bytesSent +
            UInt64.ofNat (NetConfig.packetHeaderBytes + payload.length) ≤
          (net.preauthStateFor dest.hostKey).bytesReceived *
              config.abuse.antiAmplificationFactor.toUInt64 +
            config.abuse.antiAmplificationSlackBytes.toUInt64) := by
  unfold Transport.queuePlainPacket Transport.canAmplifyTo
  rw [if_neg (not_lt.mpr hlen)]
  by_cases hpays : (net.preauthStateFor dest.hostKey).bytesSent +
        UInt64.ofNat (NetConfig.packetHeaderBytes + payload.length) ≤
      (net.preauthStateFor dest.hostKey).bytesReceived *
          config.abuse.antiAmplificationFactor.toUInt64 +
        config.abuse.antiAmplificationSlackBytes.toUInt64
  · simp only [hpays, decide_true, Bool.not_true, Bool.false_eq_true, if_false, and_true,
      sealAndEnqueue, buildPacket_plain hlen, enqueuePendingPacket]
    by_cases hfull : config.maxPendingPackets.toNat ≤ net.pending.length
    · simp only [hfull, if_true, not_lt]
    · simp only [hfull, if_false, not_lt, iff_false]
      intro hsame
      have hpush := congrArg List.length hsame
      simp only [Transport.push, List.orderedInsert_length] at hpush
      omega
  · simp only [hpays, decide_false, Bool.not_false, if_true, and_false, not_false_eq_true]

/-- A close frame in the clear takes `plainCloseBytes`. -/
theorem queuePlainClose_pending (C : Crypto) (now : UInt64) (dest : Endpoint)
    (reason : CloseReason) (srv : Server) :
    (srv.queuePlainClose C now dest 0 reason).net.pending = srv.net.pending ↔
      srv.affordsClose dest 0 = false := by
  have hframe : writeCloseFrame ⟨8, []⟩ reason = .ok ⟨8, be16 reason.code⟩ := rfl
  unfold queuePlainClose queuePlain affordsClose
  rw [hframe]
  refine (queuePlainPacket_pending (by simp) srv.config dest .close 0 srv.net.statelessSeq .high 0
    { srv.net with statelessSeq := srv.net.statelessSeq + 1 }).trans ?_
  rw [← Bool.not_eq_true, Bool.and_eq_true, decide_eq_true_iff, decide_eq_true_iff, length_be16,
    UInt64.add_zero]
  rfl

/-- Bytes that have been counted pay as well as bytes that will be. -/
theorem affordsClose_notePreauthReceive (source : Endpoint) (bytes : ℕ) (now : UInt64)
    (srv : Server) :
    (srv.notePreauthReceive source bytes now).affordsClose source 0 =
      srv.affordsClose source (UInt64.ofNat bytes) := by
  have hstate : (srv.notePreauthReceive source bytes now).net.preauthStateFor source.hostKey =
      { srv.net.preauthStateFor source.hostKey with
        bytesReceived :=
          (srv.net.preauthStateFor source.hostKey).bytesReceived + UInt64.ofNat bytes
        lastSeenMs := now } := by
    unfold notePreauthReceive Transport.preauthStateFor
    simp only [log, AList.lookup_insert, Option.getD_some]
  simp only [affordsClose, hstate, UInt64.add_zero]
  rfl

/-- A datagram of a banned host is ignored exactly when it is not of another version, or cannot
be answered for other reasons. -/
theorem banned_host_ignored_iff (C : Crypto) (N : InetNtop) (srv : Server) (source : Endpoint)
    (datagram : Bytes) (now : UInt64) (draws : Draws) (h : srv.Banned source now) :
    srv.Ignores (srv.receive C N source datagram now draws) ↔
      srv.answersVersion source datagram = false := by
  have hnote : ∀ bytes, (srv.notePreauthReceive source bytes now).Banned source now := fun _ => h
  unfold receive answersVersion
  cases hparse : parsePacket datagram with
  | ok packet =>
    refine iff_of_true ?_ rfl
    by_cases htraffic : srv.isSessionTraffic packet = true
    · simp only [htraffic, if_true, h.handlePacket]
      exact ⟨rfl, rfl, rfl, rfl⟩
    · simp only [htraffic, Bool.false_eq_true, if_false, (hnote _).handlePacket]
      exact ⟨rfl, rfl, rfl, rfl⟩
  | error e =>
    by_cases hversion : e.code = .unsupportedVersion
    · have hpending := queuePlainClose_pending C now source .unsupportedVersion
        (srv.notePreauthReceive source datagram.length now)
      rw [affordsClose_notePreauthReceive] at hpending
      simp only [hversion, if_true, decide_true, Bool.true_and]
      refine Iff.trans ⟨fun hign => hign.pending, fun hsame => ?_⟩ hpending
      exact ⟨hsame, rfl, rfl, rfl⟩
    · refine iff_of_true ?_ (by simp [hversion])
      simp only [hversion, if_false, (hnote _).noteInvalidPacket]
      exact ⟨rfl, rfl, rfl, rfl⟩

def otherVersion : Bytes := ({ version := 0 } : PacketHeader).encode

/-- One byte sixteen times: the host is banned. -/
def sixteenStrays : List Op :=
  [.listen .ready (Block.zero 32),
    .tick { flushNow := 1000, reliableNow := 1000, housekeepingNow := 1000, arrivals :=
      List.replicate 16 (.datagram loopback [0] 1000 {}) }]

/-- A banned host that sends a packet of another version is answered. -/
theorem banned_host_answered :
    let srv := ({} : Server).run .checksum .standard sixteenStrays
    validateServerConfig srv.config = .ok () ∧ srv.Banned loopback 1001 ∧
      srv.net.pending = [] ∧
      ¬srv.Ignores (srv.receive .checksum .standard loopback otherVersion 1001 {}) := by
  intro srv
  have hrun : (1001 : UInt64) < (srv.abuseStateFor loopback).bannedUntilMs ∧
      srv.net.pending = [] ∧
      (srv.receive .checksum .standard loopback otherVersion 1001 {}).net.pending ≠ [] := by
    decide +kernel
  refine ⟨by decide +kernel, hrun.1, hrun.2.1, ?_⟩
  intro h
  exact hrun.2.2 (h.pending.trans hrun.2.1)

/-- The seventeenth stray byte is ignored. -/
theorem banned_host_ignored_iff_stray :
    let srv := ({} : Server).run .checksum .standard sixteenStrays
    srv.Ignores (srv.receive .checksum .standard loopback [0] 1001 {}) := by
  intro srv
  have hban : (1001 : UInt64) < (srv.abuseStateFor loopback).bannedUntilMs := by decide +kernel
  exact (banned_host_ignored_iff .checksum .standard srv loopback [0] 1001 {} hban).mpr rfl

end Server

end SecureCnet
