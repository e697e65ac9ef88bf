import SecureCnet.Server.Callbacks

/-!
# How a closing session leaves the table

A closing session is removed once its last packet left `close_drain_ms` ago. The time
is the one of any packet of the session, so answers to its peer move it on, and there
has to be one: a session that never sent anything and has nothing to send stays.
-/

namespace SecureCnet

namespace Party

variable {C : Crypto} {p p' p'' : Party} {kind : PacketKind} {payload : Bytes}
  {priority : SendPriority} {config : ServerConfig} {now : UInt64}

/-- Packets may have joined the queue; none has left. -/
structure Queues (p p' : Party) : Prop where
  side : p'.side = p.side
  lastSend : p'.session.lastSendMs = p.session.lastSendMs
  pending : p.net.pending ⊆ p'.net.pending

theorem Queues.refl (p : Party) : p.Queues p := ⟨rfl, rfl, List.Subset.refl _⟩

theorem Queues.trans (h : p.Queues p') (h' : p'.Queues p'') : p.Queues p'' :=
  ⟨h'.side.trans h.side, h'.lastSend.trans h.lastSend, List.Subset.trans h.pending h'.pending⟩

theorem sealAndEnqueue_pending {maxPending : UInt32} {dest : Endpoint} {owner : UInt64}
    {encrypted : Bool} {connId seq : UInt64} {key : Block 32} {net : Transport} {q : PendingPacket}
    (h : q ∈ net.pending) :
    q ∈ (sealAndEnqueue C maxPending dest owner kind encrypted payload connId seq key priority
      net).2.pending := by
  unfold sealAndEnqueue enqueuePendingPacket
  split
  · exact h
  · split_ifs
    · exact h
    · exact mem_push.mpr (Or.inr h)

theorem queuePlainPacket_pending {dest : Endpoint} {connId seq : UInt64} {owner : UInt64}
    {net : Transport} {q : PendingPacket} (h : q ∈ net.pending) :
    q ∈ (Transport.queuePlainPacket C config now dest kind payload connId seq priority owner
      net).2.pending := by
  unfold Transport.queuePlainPacket
  dsimp only
  split_ifs
  · exact h
  · exact h
  · exact sealAndEnqueue_pending h

theorem Queued.queues {rc : Result Unit} (h : Queued C p kind payload priority rc p') :
    p.Queues p' := by
  cases h with
  | refused e => exact .refl p
  | burned e => exact ⟨rfl, rfl, List.Subset.refl _⟩
  | dropped e =>
    rw [sealing_eq]
    exact ⟨rfl, rfl, List.Subset.refl _⟩
  | queued bytes hbuild hkeys =>
    rw [sealing_eq]
    exact ⟨rfl, rfl, fun q hq => mem_push.mpr (Or.inr hq)⟩

theorem Change.queues {A : Channel → UInt64 → Prop} (hside : p.side = .server config)
    (h : Change C A p p') : p.Queues p' := by
  cases h with
  | session s h => exact ⟨rfl, h.lastSend, List.Subset.refl _⟩
  | dies _ h =>
    obtain ⟨config', hc'⟩ := h.dead.1
    rw [h.side, hside] at hc'
    cases hc'
  | ends config hs hstate =>
    rw [ends_eq hstate]
    exact ⟨rfl, rfl, List.Subset.refl _⟩
  | queue _ kind payload priority rc h hk hm => exact h.queues
  | ack q ch id h => exact h.queues.trans ⟨rfl, rfl, List.Subset.refl _⟩
  | plain _ h =>
    cases h with
    | client config payload hclient =>
      rw [hside] at hclient
      cases hclient
    | server config now payload hs hstate =>
      exact ⟨rfl, rfl, fun _ hq => queuePlainPacket_pending hq⟩

theorem Steps.queues {A : Channel → UInt64 → Prop} (hside : p.side = .server config)
    (h : Steps C A p p') : p.Queues p' := by
  induction h with
  | refl => exact .refl p
  | tail _ hc ih => exact ih.trans (hc.queues (ih.side.trans hside))

theorem Sending.queues {msgs : List MsgView} (h : Sending C priority p msgs p') : p.Queues p' := by
  refine h.rule .refl .trans ?_ Queued.queues
  rintro p s ⟨_, _, _, _, _, es, rfl, -⟩
  exact ⟨rfl, rfl, List.Subset.refl _⟩

/-- Only the flush loop takes packets out of the queue. -/
theorem call_queues (hside : p.side = .server config) {k : Call}
    (hk : ∀ now i socket, k ≠ .flush now i socket) : p.Queues (p.call C k) := by
  cases k with
  | packet now packet =>
    exact (receivePacket_steps (A := fun _ _ => True) now packet p
      fun _ _ _ => Or.inl (by simp)).queues hside
  | close now reason => exact (closeSession_steps (A := fun _ _ => True) now reason p).queues hside
  | pumpReliable now => exact (pumpReliable_steps (A := fun _ _ => True) now p).queues hside
  | housekeep now => exact (runHousekeeping_steps (A := fun _ _ => True) now p).queues hside
  | send options type payload now =>
    obtain ⟨sent, hsent, -⟩ := send_spec (C := C) options type payload now p
    exact hsent.queues
  | sendPayload data => exact (sendPayload_steps (A := fun _ _ => True) data p).queues hside
  | flush now i socket => exact absurd rfl (hk now i socket)

theorem flushAt_none {i : ℕ} {socket : SocketResult} (h : p.flushAt now i socket = (none, p')) :
    p'.session.lastSendMs = p.session.lastSendMs ∧ p'.net = p.net := by
  unfold flushAt at h
  cases hpkt : p.net.pending[i]? with
  | none =>
    rw [hpkt] at h
    cases h
    exact ⟨rfl, rfl⟩
  | some pkt =>
    rw [hpkt] at h
    dsimp only at h
    split_ifs at h
    · cases h
      exact ⟨rfl, rfl⟩
    · cases h
      exact ⟨rfl, rfl⟩
    · cases socket with
      | sent => cases h
      | wouldBlock => cases h; exact ⟨rfl, rfl⟩
      | failed => cases h; exact ⟨rfl, rfl⟩

theorem flushAt_some {i : ℕ} {socket : SocketResult} {bytes : Bytes}
    (h : p.flushAt now i socket = (some bytes, p')) :
    p'.session.lastSendMs = now ∧ p'.net.pending = p.net.pending.eraseIdx i ∧
      p'.session.state = p.session.state := by
  unfold flushAt at h
  cases hpkt : p.net.pending[i]? with
  | none =>
    rw [hpkt] at h
    cases h
  | some pkt =>
    rw [hpkt] at h
    dsimp only at h
    split_ifs at h
    · cases h
    · cases h
    · cases socket with
      | sent =>
        cases h
        refine ⟨rfl, ?_, rfl⟩
        exact congrArg (List.eraseIdx · i) (noteSent_pending now _ _)
      | wouldBlock => cases h
      | failed => cases h

end Party

namespace Server

variable {C : Crypto} {N : InetNtop} {a : Act} {srv srv' : Server} {connId now T : UInt64}
  {ps ps' : PeerSession} {P : UInt64 → Prop} {s : Session}

/-! ### Draining -/

/-- The session is over, or closing and its last packet left at such a time. -/
def Draining (P : UInt64 → Prop) (s : Session) : Prop :=
  s.state = .closed ∨ s.state = .closing ∧ P s.lastSendMs

theorem Draining.rank (h : Draining P s) : ConnectionState.closing.rank ≤ s.state.rank := by
  rcases h with h | h
  · rw [h]
    decide
  · rw [h.1]

theorem Draining.mono {Q : UInt64 → Prop} (h : Draining P s) (hPQ : ∀ T, P T → Q T) :
    Draining Q s :=
  h.imp id fun h => ⟨h.1, hPQ _ h.2⟩

/-- The server closes session 7 after what it had queued has left. -/
def closing : List Act :=
  announced ++ [.visit 1206 0 .sent, .visit 1206 0 .sent, .closePeer loopback 7 1207 .normal]

end Server

end SecureCnet
