import SecureCnet.Session.Flush
import SecureCnet.Session.Sealed

/-!
# What session code leaves alone

Until a connection is over, session code keeps the connection id and the keys, and
its replay window only takes in more numbers. It never queues a handshake packet:
those come from the code that sets a connection up.
-/

namespace SecureCnet

/-- The payload of an unencrypted handshake packet. -/
def plainHandshake (datagram : Bytes) : Option Bytes :=
  match parsePacket datagram with
  | .error _ => none
  | .ok packet =>
    if packet.h.kind = PacketKind.handshake.code ∧ packetHeaderEncrypted packet.h = false then
      some packet.payload
    else none

section

variable {C : Crypto} {kind : PacketKind} {payload datagram : Bytes} {connId seq : UInt64}
  {key : Block 32}

theorem plainHandshake_eq_some : plainHandshake datagram = some payload ↔
    ∃ packet, parsePacket datagram = .ok packet ∧ packet.h.kind = PacketKind.handshake.code ∧
      packetHeaderEncrypted packet.h = false ∧ packet.payload = payload := by
  unfold plainHandshake
  cases parsePacket datagram with
  | error e => simp
  | ok packet =>
    dsimp only
    split_ifs with h
    · simp [h.1, h.2]
    · simp only [Except.ok.injEq, exists_eq_left', false_iff]
      exact fun hp => h ⟨hp.1, hp.2.1⟩

theorem plainHandshake_sealed
    (h : buildPacket C kind true payload connId seq key = .ok datagram) :
    plainHandshake datagram = none := by
  obtain ⟨c, -, -, hparse⟩ := parsePacket_buildPacket_encrypted h
  unfold plainHandshake
  simp [hparse]

theorem plainHandshake_plain
    (h : buildPacket C kind false payload connId seq key = .ok datagram) :
    plainHandshake datagram = if kind = .handshake then some payload else none := by
  unfold plainHandshake
  rw [parsePacket_buildPacket_plain h]
  have hcode : (packetHeader kind false connId seq payload.length).kind =
      PacketKind.handshake.code ↔ kind = .handshake :=
    ⟨PacketKind.code_inj, fun hk => congrArg PacketKind.code hk⟩
  simp [hcode]

end

namespace Session

variable (next : ConnectionState) (s : Session)

@[simp] theorem transitionState_state : (s.transitionState next).state = next := by
  unfold transitionState
  split_ifs with h
  · exact h
  · rfl

@[simp] theorem transitionState_closeReason :
    (s.transitionState next).closeReason = s.closeReason := by
  unfold transitionState
  split_ifs <;> rfl

@[simp] theorem transitionState_keys : (s.transitionState next).keys = s.keys := by
  unfold transitionState
  split_ifs <;> rfl

@[simp] theorem transitionState_ephemeral :
    (s.transitionState next).ephemeral = s.ephemeral := by
  unfold transitionState
  split_ifs <;> rfl

@[simp] theorem transitionState_budget : (s.transitionState next).budget = s.budget := by
  unfold transitionState
  split_ifs <;> rfl

end Session

namespace Party

@[simp] theorem failConnection_state (reason : CloseReason) (p : Party) :
    (p.failConnection reason).session.state = .closed :=
  Session.transitionState_state .closed _

@[simp] theorem failConnection_closeReason (reason : CloseReason) (p : Party) :
    (p.failConnection reason).session.closeReason = reason :=
  Session.transitionState_closeReason .closed _

@[simp] theorem remoteClose_state (reason : CloseReason) (p : Party) :
    (p.remoteClose reason).session.state = .closed :=
  Session.transitionState_state .closed _

@[simp] theorem remoteClose_closeReason (reason : CloseReason) (p : Party) :
    (p.remoteClose reason).session.closeReason = reason :=
  Session.transitionState_closeReason .closed _

theorem closeSession_state {C : Crypto} (now : UInt64) (reason : CloseReason) (p : Party) :
    (p.closeSession C now reason).session.state =
      if p.session.state = .closed then .closed else .closing := by
  unfold closeSession
  dsimp only
  split_ifs with hopen hclosed hclosed
  · exact absurd hclosed hopen
  · exact Session.transitionState_state _ _
  · exact hclosed
  · exact absurd hclosed hopen

theorem close_client {C : Crypto} {p : Party} {config : ClientConfig} (hs : p.side = .client config)
    (now : UInt64) (reason : CloseReason) :
    (p.close C now reason).2 = p ∨
      (ConnectionState.closing.rank ≤ (p.close C now reason).2.session.state.rank ∧
        (p.close C now reason).2.session.closeReason = reason) := by
  unfold close
  simp only [hs]
  split_ifs
  · exact Or.inl rfl
  · refine Or.inr ?_
    split
    · rw [failConnection_state, failConnection_closeReason]
      exact ⟨by decide, rfl⟩
    · rw [mapSession_session, Session.startClosing, Session.transitionState_state,
        Session.transitionState_closeReason]
      exact ⟨le_rfl, rfl⟩

/-- What session code does to the party it runs on. -/
inductive Ran (C : Crypto) (p p' : Party) : Prop
  | steps (h : Steps C (fun _ _ => True) p p')
  | sends {priority : SendPriority} {msgs : List MsgView} (h : Sending C priority p msgs p')

/-- No handshake packet joins the queue. -/
def Posts (p p' : Party) : Prop :=
  ∀ q ∈ p'.net.pending, q ∈ p.net.pending ∨ plainHandshake q.bytes = none

/-- The connection is the same one. -/
structure Lasts (p p' : Party) : Prop where
  connId : p'.session.connId = p.session.connId
  keys : p'.session.keys = p.session.keys
  ephemeral : p'.session.ephemeral = p.session.ephemeral
  window : p.session.packetWindow.Grows p'.session.packetWindow
  socket : p'.net.sockOpen = p.net.sockOpen

variable {C : Crypto} {A : Channel → UInt64 → Prop} {p p' p'' : Party} {kind : PacketKind}
  {payload : Bytes} {priority : SendPriority} {rc : Result Unit} {msgs : List MsgView}

/-! ### Handshake packets -/

theorem Posts.refl (p : Party) : p.Posts p := fun _ h => Or.inl h

theorem Posts.trans (h : p.Posts p') (h' : p'.Posts p'') : p.Posts p'' := by
  intro q hq
  rcases h' q hq with hold | hnone
  · exact h q hold
  · exact Or.inr hnone

theorem Queued.posts (h : Queued C p kind payload priority rc p') : p.Posts p' := by
  cases h with
  | refused e => exact .refl p
  | burned e => exact .refl p
  | dropped e => exact .refl p
  | queued bytes hbuild _ =>
    intro q hq
    rcases mem_push.mp hq with rfl | hold
    · exact Or.inr (plainHandshake_sealed hbuild)
    · exact Or.inl hold

theorem PlainClose.plainHandshake_eq {bytes : Bytes} (h : PlainClose C bytes) :
    plainHandshake bytes = none := by
  obtain ⟨payload, connId, seq, key, hbuild⟩ := h
  rw [plainHandshake_plain hbuild]
  rfl

theorem Change.posts (h : Change C A p p') : p.Posts p' := by
  cases h with
  | session => exact .refl p
  | dies _ h =>
    intro q hq
    rw [h.queue] at hq
    cases hq
  | ends => exact .refl p
  | queue _ _ _ _ _ h => exact h.posts
  | ack q _ _ h => exact h.posts
  | plain _ h =>
    obtain ⟨s, net, rfl, -, -, hq⟩ := h.shape
    exact fun q hmem => (hq q hmem).imp id PlainClose.plainHandshake_eq

theorem Steps.posts (h : Steps C A p p') : p.Posts p' := by
  induction h with
  | refl => exact .refl p
  | tail _ hc ih => exact ih.trans hc.posts

theorem Sending.posts (h : Sending C priority p msgs p') : p.Posts p' :=
  h.rule .refl .trans (fun p _ _ => .refl p) Queued.posts

theorem Ran.posts (h : p.Ran C p') : p.Posts p' := by
  cases h with
  | steps h => exact h.posts
  | sends h => exact h.posts

/-! ### The connection -/

theorem Lasts.refl (p : Party) : p.Lasts p := ⟨rfl, rfl, rfl, .refl, rfl⟩

theorem Lasts.trans (h : p.Lasts p') (h' : p'.Lasts p'') : p.Lasts p'' :=
  ⟨h'.connId.trans h.connId, h'.keys.trans h.keys, h'.ephemeral.trans h.ephemeral,
    h.window.trans h'.window, h'.socket.trans h.socket⟩

theorem Queued.lasts (h : Queued C p kind payload priority rc p') : p.Lasts p' := by
  obtain ⟨n, es, net, rfl, ho, -⟩ := h.upToNumber
  exact ⟨rfl, rfl, rfl, .refl, ho⟩

theorem Change.rank (h : Change C A p p') : p.session.state.rank ≤ p'.session.state.rank := by
  cases h with
  | session s h => exact h.rank
  | dies _ h =>
    rw [h.dead.2.1]
    exact ConnectionState.rank_le_closed _
  | ends config hside hstate =>
    rw [ends_eq hstate]
    exact ConnectionState.rank_le_closed _
  | queue _ _ _ _ _ h => rw [h.state_eq]
  | ack q _ _ h => exact le_of_eq (congrArg ConnectionState.rank h.state_eq.symm)
  | plain _ h =>
    obtain ⟨s, net, rfl, rfl | rfl, -⟩ := h.shape <;> exact le_rfl

theorem Steps.rank (h : Steps C A p p') : p.session.state.rank ≤ p'.session.state.rank := by
  induction h with
  | refl => exact le_rfl
  | tail _ hc ih => exact ih.trans hc.rank

theorem Change.trace_prefix (h : Change C A p p') : p.session.trace <+: p'.session.trace := by
  cases h with
  | session s h =>
    obtain ⟨es, he, -⟩ := h.trace
    exact ⟨es, he.symm⟩
  | dies _ h =>
    obtain ⟨es, he, -⟩ := h.trace
    exact ⟨es, he.symm⟩
  | ends config hs hstate =>
    rw [ends_eq hstate]
    exact List.prefix_append _ _
  | queue _ kind payload priority rc h hk hm => exact h.trace_prefix
  | ack q ch id h => exact h.trace_prefix.trans (List.prefix_append _ _)
  | plain _ h =>
    obtain ⟨s, net, rfl, hs, -⟩ := h.shape
    rcases hs with rfl | rfl
    · exact List.prefix_refl _
    · exact List.prefix_append _ _

theorem Steps.trace_prefix (h : Steps C A p p') : p.session.trace <+: p'.session.trace := by
  induction h with
  | refl => exact List.prefix_refl _
  | tail _ hc ih => exact ih.trans hc.trace_prefix

theorem Change.lasts (h : Change C A p p') (hopen : p'.session.state ≠ .closed) : p.Lasts p' := by
  cases h with
  | session s h => exact ⟨h.connId, h.keys, h.ephemeral, h.window, rfl⟩
  | dies _ h => exact absurd h.dead.2.1 hopen
  | ends config hside hstate =>
    rw [ends_eq hstate] at hopen
    exact absurd rfl hopen
  | queue _ _ _ _ _ h => exact h.lasts
  | ack q _ _ h => exact h.lasts.trans ⟨rfl, rfl, rfl, .refl, rfl⟩
  | plain _ h =>
    obtain ⟨s, net, rfl, rfl | rfl, ho, -⟩ := h.shape <;> exact ⟨rfl, rfl, rfl, .refl, ho⟩

theorem ne_closed_of_rank_le {s s' : ConnectionState} (h : s.rank ≤ s'.rank)
    (hs' : s' ≠ .closed) : s ≠ .closed := by
  rintro rfl
  cases s' <;> simp_all [ConnectionState.rank]

theorem Steps.lasts (h : Steps C A p p') (hopen : p'.session.state ≠ .closed) : p.Lasts p' := by
  induction h with
  | refl => exact .refl p
  | tail _ hc ih => exact (ih (ne_closed_of_rank_le hc.rank hopen)).trans (hc.lasts hopen)

theorem Sending.lasts (h : Sending C priority p msgs p') : p.Lasts p' := by
  refine h.rule .refl .trans ?_ Queued.lasts
  rintro p s ⟨_, _, _, _, _, es, rfl, -⟩
  exact ⟨rfl, rfl, rfl, .refl, rfl⟩

theorem Sending.state_eq (h : Sending C priority p msgs p') :
    p'.session.state = p.session.state := by
  refine h.rule (R := fun p q => q.session.state = p.session.state) (fun _ => rfl)
    (fun h h' => h'.trans h) ?_ Queued.state_eq
  rintro p s ⟨_, _, _, _, _, es, rfl, -⟩
  rfl

theorem Ran.rank (h : p.Ran C p') : p.session.state.rank ≤ p'.session.state.rank := by
  cases h with
  | steps h => exact h.rank
  | sends h => rw [h.state_eq]

theorem Ran.lasts (h : p.Ran C p') (hopen : p'.session.state ≠ .closed) : p.Lasts p' := by
  cases h with
  | steps h => exact h.lasts hopen
  | sends h => exact h.lasts

end Party

end SecureCnet
