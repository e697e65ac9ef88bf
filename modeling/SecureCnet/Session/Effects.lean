import Mathlib.Logic.Relation
import SecureCnet.Session.Rules

/-!
# What a session operation can do

Every operation of a session other than `send` is a sequence of a few changes:
it queues a packet (of its own, or a retransmission, or an acknowledgement),
rearranges state that no packet depends on, or ends a client's connection. The
theorems of this module say so once for each operation; invariants of whole runs
then need a look at the changes only.
-/

namespace SecureCnet

/-- Events that draw no number and queue no acknowledgement; `A` bounds the acks taken. -/
def Event.Quiet (A : Channel → UInt64 → Prop) : Event → Prop
  | .drew _ | .encrypted _ _ | .ackQueued _ _ => False
  | .acked ch id => A ch id
  | .reported report => A report.channel report.messageId
  | _ => True

/-- An event of the rate controller. -/
inductive SendBudget.Event (b : SendBudget) : SendBudget → Prop
  | acked (ack : ReliableAckEvent) : Event b (b.onAck ack)
  | lost (now losses : UInt64) : Event b (b.onLoss now losses)

/-- The order in which a session goes through its states. -/
def ConnectionState.rank : ConnectionState → ℕ
  | .idle => 0
  | .handshaking => 1
  | .established => 2
  | .closing => 3
  | .closed => 4

theorem ConnectionState.rank_le_closed (s : ConnectionState) :
    s.rank ≤ ConnectionState.closed.rank := by
  cases s <;> decide

theorem ConnectionState.rank_le_closing {s : ConnectionState} (h : s ≠ .closed) :
    s.rank ≤ ConnectionState.closing.rank := by
  cases s <;> first | decide | exact absurd rfl h

theorem ConnectionState.rank_lt {s s' : ConnectionState} (h : s.rank ≤ s'.rank) (hne : s ≠ s') :
    s.rank < s'.rank := by
  cases s <;> cases s' <;> first | exact absurd rfl hne | exact h.lt_of_ne (by decide)

def Event.transition : Event → Option (ConnectionState × ConnectionState)
  | .stateChanged previous next => some (previous, next)
  | _ => none

/-- Transitions that follow each other, each to a state of higher rank. -/
inductive ConnectionState.Path :
    ConnectionState → List (ConnectionState × ConnectionState) → ConnectionState → Prop
  | nil (a : ConnectionState) : Path a [] a
  | cons {a b c : ConnectionState} {ts : List (ConnectionState × ConnectionState)}
      (h : a.rank < b.rank) (hp : Path b ts c) : Path a ((a, b) :: ts) c

theorem ConnectionState.Path.append {a b c : ConnectionState}
    {ts ts' : List (ConnectionState × ConnectionState)} (h : Path a ts b) (h' : Path b ts' c) :
    Path a (ts ++ ts') c := by
  induction h with
  | nil => exact h'
  | cons hlt _ ih => exact .cons hlt (ih h')

namespace Session

/-- The state changes in the history of a session. -/
def transitions (s : Session) : List (ConnectionState × ConnectionState) :=
  s.trace.filterMap Event.transition

/-- The session has gone through a path of states. -/
def Walks (s s' : Session) : Prop :=
  ∃ ts, s'.transitions = s.transitions ++ ts ∧ ConnectionState.Path s.state ts s'.state

theorem walks_of_eq {s s' : Session} (ht : s'.transitions = s.transitions)
    (hs : s'.state = s.state) : s.Walks s' :=
  ⟨[], by rw [ht, List.append_nil], hs ▸ .nil _⟩

theorem Walks.trans {s s' s'' : Session} (h : s.Walks s') (h' : s'.Walks s'') : s.Walks s'' := by
  obtain ⟨ts, ht, hp⟩ := h
  obtain ⟨ts', ht', hp'⟩ := h'
  exact ⟨ts ++ ts', by rw [ht', ht, List.append_assoc], hp.append hp'⟩

theorem transitions_append {s s' : Session} {es : List Event}
    (hes : ∀ e ∈ es, e.transition = none) (h : s'.trace = s.trace ++ es) :
    s'.transitions = s.transitions := by
  have hnil : es.filterMap Event.transition = [] := List.filterMap_eq_nil_iff.mpr hes
  rw [transitions, transitions, h, List.filterMap_append, hnil, List.append_nil]

/-- The counters a sender numbers its messages with. -/
def numbers (s : Session) : UInt64 × UInt64 × UInt64 × UInt64 × UInt64 :=
  (s.reliable.nextMessageId, s.orderedReliable.nextMessageId, s.nextFragmentMessageId,
    s.nextOrderedSequence, s.nextSequencedSequence)

/-- A frame some message of the retransmission queues consists of. -/
def Pending (s : Session) (msg : MsgView) : Prop :=
  msg.channel.isReliable = true ∧
    ∃ id, (id, msg.type, msg.data) ∈ (s.reliableFor msg.channel).contents

/-- Nothing is sent: numbers and keys stay, pending messages may go, quiet events are logged. -/
structure Tidy (A : Channel → UInt64 → Prop) (s s' : Session) : Prop where
  endpoint : s'.endpoint = s.endpoint
  connId : s'.connId = s.connId
  sendSeq : s'.sendSeq = s.sendSeq
  keys : s'.keys = s.keys
  ephemeral : s'.ephemeral = s.ephemeral
  window : s.packetWindow.Grows s'.packetWindow
  lastSend : s'.lastSendMs = s.lastSendMs
  numbers : s'.numbers = s.numbers
  budget : Relation.ReflTransGen SendBudget.Event s.budget s'.budget
  contents : ∀ ch, (s'.reliableFor ch).contents ⊆ (s.reliableFor ch).contents
  rank : s.state.rank ≤ s'.state.rank
  isOpen : s'.state = .closed → s.state = .closed
  trace : ∃ es, s'.trace = s.trace ++ es ∧ ∀ e ∈ es, e.Quiet A
  walks : s.Walks s'

variable {A : Channel → UInt64 → Prop} {s s' s'' : Session}

theorem Tidy.refl (A : Channel → UInt64 → Prop) (s : Session) : s.Tidy A s :=
  ⟨rfl, rfl, rfl, rfl, rfl, .refl, rfl, rfl, .refl, fun _ => List.Subset.refl _, le_rfl, id,
    ⟨[], by simp⟩, walks_of_eq rfl rfl⟩

theorem Tidy.closed (h : s.Tidy A s') (hc : s.state = .closed) : s'.state = .closed := by
  have hr := h.rank
  rw [hc] at hr
  cases hs : s'.state <;> rw [hs] at hr <;> first | rfl | exact absurd hr (by decide)

theorem Tidy.trans (h : s.Tidy A s') (h' : s'.Tidy A s'') : s.Tidy A s'' where
  endpoint := h'.endpoint.trans h.endpoint
  connId := h'.connId.trans h.connId
  sendSeq := h'.sendSeq.trans h.sendSeq
  keys := h'.keys.trans h.keys
  ephemeral := h'.ephemeral.trans h.ephemeral
  window := h.window.trans h'.window
  lastSend := h'.lastSend.trans h.lastSend
  numbers := h'.numbers.trans h.numbers
  budget := h.budget.trans h'.budget
  contents := fun ch => List.Subset.trans (h'.contents ch) (h.contents ch)
  rank := h.rank.trans h'.rank
  isOpen := fun hc => h.isOpen (h'.isOpen hc)
  trace := by
    obtain ⟨es, he, hq⟩ := h.trace
    obtain ⟨es', he', hq'⟩ := h'.trace
    refine ⟨es ++ es', by rw [he', he, List.append_assoc], ?_⟩
    intro e hmem
    rcases List.mem_append.mp hmem with hm | hm
    · exact hq e hm
    · exact hq' e hm
  walks := h.walks.trans h'.walks

theorem tidy_log {e : Event} (he : e.Quiet A) (ht : e.transition = none) (s : Session) :
    s.Tidy A (s.log e) where
  endpoint := rfl
  connId := rfl
  sendSeq := rfl
  keys := rfl
  ephemeral := rfl
  window := .refl
  lastSend := rfl
  numbers := rfl
  budget := .refl
  contents := fun _ => List.Subset.refl _
  rank := le_rfl
  isOpen := id
  trace := ⟨[e], rfl, by simpa using he⟩
  walks := walks_of_eq (transitions_append (List.forall_mem_singleton.mpr ht) rfl) rfl

/-- A change of fields no packet depends on. -/
theorem tidy_of_eq (he : s'.endpoint = s.endpoint) (hc : s'.connId = s.connId)
    (hq : s'.sendSeq = s.sendSeq) (hk : s'.keys = s.keys) (hp : s'.ephemeral = s.ephemeral)
    (hw : s.packetWindow.Grows s'.packetWindow) (hl : s'.lastSendMs = s.lastSendMs)
    (hn : s'.numbers = s.numbers) (hb : Relation.ReflTransGen SendBudget.Event s.budget s'.budget)
    (hr : s'.reliable = s.reliable) (ho : s'.orderedReliable = s.orderedReliable)
    (hs : s'.state = s.state) (ht : s'.trace = s.trace) : s.Tidy A s' where
  endpoint := he
  connId := hc
  sendSeq := hq
  keys := hk
  ephemeral := hp
  window := hw
  lastSend := hl
  numbers := hn
  budget := hb
  contents := fun ch => by simp [reliableFor, hr, ho]
  rank := by rw [hs]
  isOpen := fun hc => hs ▸ hc
  trace := ⟨[], by simp [ht], by simp⟩
  walks := walks_of_eq (by rw [transitions, transitions, ht]) hs

theorem tidy_received {es : List Event} (ordered : OrderedReceiveWindow)
    (sequenced : SequencedReceiveWindow) (reassembler : FragmentReassembler)
    (hes : ∀ e ∈ es, e.Quiet A ∧ e.transition = none) :
    s.Tidy A { s with ordered, sequenced, reassembler, trace := s.trace ++ es } where
  endpoint := rfl
  connId := rfl
  sendSeq := rfl
  keys := rfl
  ephemeral := rfl
  window := .refl
  lastSend := rfl
  numbers := rfl
  budget := .refl
  contents := fun _ => List.Subset.refl _
  rank := le_rfl
  isOpen := id
  trace := ⟨es, rfl, fun e he => (hes e he).1⟩
  walks := walks_of_eq (transitions_append (fun e he => (hes e he).2) rfl) rfl

theorem tidy_transitionState {next : ConnectionState} (h : s.state.rank ≤ next.rank)
    (hn : next ≠ .closed) : s.Tidy A (s.transitionState next) := by
  unfold transitionState
  split_ifs with hsame
  · exact .refl A s
  · refine ⟨rfl, rfl, rfl, rfl, rfl, .refl, rfl, rfl, .refl, fun _ => List.Subset.refl _, h,
      fun hc => absurd hc hn, ⟨[_], rfl, ?_⟩,
      [(s.state, next)], ?_, .cons (ConnectionState.rank_lt h hsame) (.nil _)⟩
    · intro e he
      rw [List.mem_singleton] at he
      rw [he]
      trivial
    · simp [transitions, log, Event.transition]

theorem tidy_startClosing (reason : CloseReason) (h : s.state ≠ .closed) :
    s.Tidy A (s.startClosing reason) := by
  have hset : s.Tidy A { s with closeReason := reason } :=
    tidy_of_eq rfl rfl rfl rfl rfl .refl rfl rfl .refl rfl rfl rfl rfl
  exact hset.trans (tidy_transitionState (ConnectionState.rank_le_closing h) (by decide))

/-- Messages leave the queue of a channel, and its numbers stay. -/
theorem tidy_setReliable {ch : Channel} {rs : ReliableSession}
    (hc : rs.contents ⊆ (s.reliableFor ch).contents)
    (hn : rs.nextMessageId = (s.reliableFor ch).nextMessageId) :
    s.Tidy A (s.setReliable ch rs) := by
  have hcont : ∀ ch', ((s.setReliable ch rs).reliableFor ch').contents ⊆
      (s.reliableFor ch').contents := by
    intro ch'
    rw [reliableFor_setReliable]
    split_ifs with hch
    · have hfor : s.reliableFor ch' = s.reliableFor ch := by simp [reliableFor, hch]
      rw [hfor]
      exact hc
    · exact List.Subset.refl _
  have hwalks : s.Walks (s.setReliable ch rs) :=
    walks_of_eq (by rw [transitions, transitions, setReliable_trace]) (setReliable_state ch rs s)
  by_cases h : ch = .reliableOrdered
  · refine ⟨?_, ?_, ?_, ?_, ?_, ?_, ?_, ?_, ?_, hcont, ?_, ?_, ⟨[], ?_, by simp⟩, hwalks⟩ <;>
      simp_all [setReliable, reliableFor, numbers, ReplayWindow.Grows, Relation.ReflTransGen.refl]
  · refine ⟨?_, ?_, ?_, ?_, ?_, ?_, ?_, ?_, ?_, hcont, ?_, ?_, ⟨[], ?_, by simp⟩, hwalks⟩ <;>
      simp_all [setReliable, reliableFor, numbers, ReplayWindow.Grows, Relation.ReflTransGen.refl]

theorem tidy_deliverApplicationMessage (ch : Channel) (t : UInt8) (d : Bytes) (seq : UInt64)
    (s : Session) : s.Tidy A (s.deliverApplicationMessage ch t d seq).2 := by
  obtain ⟨ordered, sequenced, es, h, hes⟩ := deliverApplicationMessage_shape ch t d seq s
  rw [h]
  refine tidy_received ordered sequenced s.reassembler fun e he => ?_
  obtain ⟨msg, rfl⟩ := hes e he
  exact ⟨trivial, rfl⟩

end Session

namespace Party

/-- A client whose connection has ended: its socket is closed for good. -/
def Dead (p : Party) : Prop :=
  (∃ config, p.side = .client config) ∧ p.session.state = .closed ∧ p.net.sockOpen = false

/-- The connection of a client ends. -/
structure Dies (A : Channel → UInt64 → Prop) (p p' : Party) : Prop where
  side : p'.side = p.side
  dead : p'.Dead
  connId : p'.session.connId = p.session.connId
  sendSeq : p'.session.sendSeq = p.session.sendSeq
  keys : p'.session.keys = .cleared
  ephemeral : p'.session.ephemeral = .cleared ∨ p'.session.ephemeral = p.session.ephemeral
  contents : ∀ ch, (p'.session.reliableFor ch).contents = []
  queue : p'.net.pending = []
  bytes : p'.net.pendingBytes = 0
  budget : p'.session.budget = p.session.budget
  trace : ∃ es, p'.session.trace = p.session.trace ++ es ∧ ∀ e ∈ es, e.Quiet A

variable (C : Crypto) (A : Channel → UInt64 → Prop)

/-- A datagram with an unencrypted close frame. -/
def PlainClose (bytes : Bytes) : Prop :=
  ∃ payload connId seq key, buildPacket C .close false payload connId seq key = .ok bytes

/-- An unencrypted close packet is queued, or refused for lack of room or allowance. -/
inductive QueuedPlain (p : Party) : Party → Prop
  | client (config : ClientConfig) (payload : Bytes) (hside : p.side = .client config) :
      QueuedPlain p (p.queuePacketClient C config .close false payload .high).2
  | server (config : ServerConfig) (now : UInt64) (payload : Bytes)
      (hside : p.side = .server config)
      (hstate : p.session.state.rank ≤ ConnectionState.handshaking.rank) :
      QueuedPlain p (p.queuePlainServer C config now .close payload .high).2

/-- The elementary changes of a session. -/
inductive Change : Party → Party → Prop
  | session (p : Party) (s : Session) (h : p.session.Tidy A s) : Change p { p with session := s }
  | dies (p p' : Party) (h : Dies A p p') : Change p p'
  /-- A server session that is closing is over. -/
  | ends (p : Party) (config : ServerConfig) (hside : p.side = .server config)
      (hstate : p.session.state = .closing) :
      Change p (p.mapSession (Session.transitionState .closed))
  /-- A packet is queued; a message packet holds one pending frame. -/
  | queue (p p' : Party) (kind : PacketKind) (payload : Bytes) (priority : SendPriority)
      (rc : Result Unit) (h : Queued C p kind payload priority rc p') (hk : kind ≠ .handshake)
      (hm : rc = .ok () → kind = .message →
        ∃ msg : MsgView, payload = msg.encode ∧ p.session.Pending msg) : Change p p'
  /-- An acknowledgement is queued. -/
  | ack (p p' : Party) (ch : Channel) (id : UInt64)
      (h : Queued C p .message
        (MsgView.encode ⟨.control, ControlType.reliableAck.code, encodeAck ch id⟩) .high (.ok ()) p') :
      Change p (p'.log (.ackQueued ch id))
  | plain (p p' : Party) (h : QueuedPlain C p p') : Change p p'

/-- A sequence of elementary changes. -/
abbrev Steps : Party → Party → Prop := Relation.ReflTransGen (Change C A)

variable {C A} {p p' : Party} {kind : PacketKind} {payload : Bytes} {priority : SendPriority}
  {rc : Result Unit} {net : Transport} {q : PendingPacket}

theorem steps_mapSession {f : Session → Session} (h : p.session.Tidy A (f p.session)) :
    Steps C A p (p.mapSession f) :=
  .single (.session p _ h)

theorem ends_eq (hstate : p.session.state = .closing) :
    p.mapSession (Session.transitionState .closed) = { p with
      session := { p.session with
        state := .closed, trace := p.session.trace ++ [.stateChanged .closing .closed] } } := by
  unfold mapSession Session.transitionState
  rw [if_neg (by rw [hstate]; decide), hstate]
  rfl

theorem sealing_eq (p : Party) : p.sealing = { p with
    session := { p.session with
      sendSeq := p.session.sendSeq + 1
      trace := p.session.trace ++ [.drew .packet, .encrypted p.session.keys.tx
        (cryptoMakePacketNonce p.session.connId p.session.sendSeq)] } } := by
  simp [sealing, mapSession, log, Session.drawPacketNumber, Session.log]

/-- Events of queueing a packet. -/
def PacketEvent (e : Event) : Prop := e = .drew .packet ∨ ∃ key nonce, e = .encrypted key nonce

/-- Only the packet number, the packet queue and, by the given events, the history change. -/
def UpToNumber (E : Event → Prop) (p p' : Party) : Prop :=
  ∃ n es net, p' = { p with
      session := { p.session with sendSeq := n, trace := p.session.trace ++ es }, net } ∧
    net.sockOpen = p.net.sockOpen ∧ ∀ e ∈ es, E e

theorem UpToNumber.refl (E : Event → Prop) (p : Party) : p.UpToNumber E p :=
  ⟨p.session.sendSeq, [], p.net, by simp, rfl, by simp⟩

theorem UpToNumber.mono {E E' : Event → Prop} (h : p.UpToNumber E p') (hE : ∀ e, E e → E' e) :
    p.UpToNumber E' p' := by
  obtain ⟨n, es, net, heq, ho, hes⟩ := h
  exact ⟨n, es, net, heq, ho, fun e he => hE e (hes e he)⟩

theorem Queued.upToNumber (h : Queued C p kind payload priority rc p') :
    p.UpToNumber PacketEvent p' := by
  cases h with
  | refused e => exact .refl _ p
  | burned e => exact ⟨_, [_], _, rfl, rfl, by simp [PacketEvent]⟩
  | dropped e => exact ⟨_, _, _, sealing_eq p, rfl, by simp [PacketEvent]⟩
  | queued bytes hbuild hkeys =>
    exact ⟨_, _, p.net.push _, by rw [sealing_eq], rfl, by simp [PacketEvent]⟩

theorem Queued.state_eq (h : Queued C p kind payload priority rc p') :
    p'.session.state = p.session.state := by
  obtain ⟨n, es, net, rfl, -⟩ := h.upToNumber
  rfl

theorem queueSecure_steps (kind : PacketKind) (payload : Bytes) (priority : SendPriority)
    (p : Party) (hk : kind ≠ .handshake) (hm : kind ≠ .message) :
    Steps C A p (p.queueSecure C kind payload priority).2 :=
  .single (.queue p _ kind payload priority _ (queueSecure_queued C kind payload priority p) hk
    fun _ h => absurd h hm)

theorem queueControlAck_steps (ch : Channel) (id : UInt64) (p : Party) :
    Steps C A p (p.queueControlAck C ch id).2 := by
  obtain ⟨rc, p', hq, ⟨e, rfl, h⟩ | ⟨rfl, h⟩⟩ := queueControlAck_queued C ch id p
  · rw [h]
    exact .single (.queue p p' _ _ _ _ hq (by decide) (fun h => by cases h))
  · rw [h]
    exact .single (.ack p p' ch id hq)

theorem mem_push {pkt : PendingPacket} :
    q ∈ (net.push pkt).pending ↔ q = { pkt with arrival := net.arrivals } ∨ q ∈ net.pending := by
  unfold Transport.push
  exact List.mem_orderedInsert _

/-- What the common end of both `queue_packet` functions does to the queue. -/
theorem mem_sealAndEnqueue {maxPending : UInt32} {dest : Endpoint} {owner connId seq : UInt64}
    {encrypted : Bool} {key : Block 32} {priority : SendPriority} (h : q ∈ (sealAndEnqueue C
      maxPending dest owner kind encrypted payload connId seq key priority net).2.pending) :
    q ∈ net.pending ∨ buildPacket C kind encrypted payload connId seq key = .ok q.bytes := by
  unfold sealAndEnqueue enqueuePendingPacket at h
  cases hb : buildPacket C kind encrypted payload connId seq key with
  | error e =>
    rw [hb] at h
    exact Or.inl h
  | ok bytes =>
    rw [hb] at h
    dsimp only at h
    split_ifs at h
    · exact Or.inl h
    · rcases mem_push.mp h with rfl | hold
      · exact Or.inr rfl
      · exact Or.inl hold

theorem sealAndEnqueue_sockOpen (maxPending : UInt32) (dest : Endpoint) (owner connId seq : UInt64)
    (kind : PacketKind) (encrypted : Bool) (payload : Bytes) (key : Block 32)
    (priority : SendPriority) (net : Transport) :
    (sealAndEnqueue C maxPending dest owner kind encrypted payload connId seq key priority
      net).2.sockOpen = net.sockOpen := by
  unfold sealAndEnqueue enqueuePendingPacket
  cases buildPacket C kind encrypted payload connId seq key with
  | error e => rfl
  | ok bytes =>
    dsimp only
    split_ifs <;> rfl

theorem Queued.sameState (h : Queued C p kind payload priority rc p') : p.SameState p' := by
  obtain ⟨n, es, net, rfl, -⟩ := h.upToNumber
  exact ⟨rfl, rfl⟩

theorem mem_queuePlainServer {config : ServerConfig} {now : UInt64} {p : Party}
    (h : q ∈ (p.queuePlainServer C config now kind payload priority).2.net.pending) :
    q ∈ p.net.pending ∨ buildPacket C kind false payload p.session.connId p.net.statelessSeq
      (Block.zero 32) = .ok q.bytes := by
  unfold queuePlainServer Transport.queuePlainPacket at h
  dsimp only at h
  split_ifs at h
  · exact Or.inl h
  · exact Or.inl h
  · exact (mem_sealAndEnqueue h).imp id id

theorem queuePlainServer_sockOpen (config : ServerConfig) (now : UInt64) (p : Party) :
    (p.queuePlainServer C config now kind payload priority).2.net.sockOpen = p.net.sockOpen := by
  unfold queuePlainServer Transport.queuePlainPacket
  dsimp only
  split_ifs
  · rfl
  · rfl
  · exact sealAndEnqueue_sockOpen ..

theorem QueuedPlain.shape (h : QueuedPlain C p p') :
    ∃ s net, p' = { p with session := s, net } ∧
      (s = p.session ∨ s = p.session.drawPacketNumber) ∧ net.sockOpen = p.net.sockOpen ∧
      ∀ q ∈ net.pending, q ∈ p.net.pending ∨ PlainClose C q.bytes := by
  cases h with
  | client config payload hside =>
    unfold queuePacketClient
    simp only [Bool.false_and, Bool.false_eq_true, if_false, Bool.not_false, Bool.true_and]
    split_ifs
    · exact ⟨_, _, rfl, Or.inl rfl, rfl, fun q hq => Or.inl hq⟩
    · refine ⟨_, _, rfl, Or.inr rfl, sealAndEnqueue_sockOpen .., ?_⟩
      intro q hq
      exact (mem_sealAndEnqueue hq).imp id fun hb => ⟨_, _, _, _, hb⟩
  | server config now payload hside hstate =>
    refine ⟨_, _, rfl, Or.inl rfl, queuePlainServer_sockOpen config now p, ?_⟩
    intro q hq
    exact (mem_queuePlainServer hq).imp id fun hb => ⟨_, _, _, _, hb⟩

/-- A close packet is queued in one of the ways above. -/
theorem queueClosePacket_steps (now : UInt64) (reason : CloseReason) (encrypted : Bool)
    (p : Party)
    (hplain : encrypted = false → p.session.state.rank ≤ ConnectionState.handshaking.rank) :
    Steps C A p (p.queueClosePacket C now reason encrypted).2 := by
  unfold queueClosePacket
  cases writeCloseFrame ⟨8, []⟩ reason with
  | error e => exact .refl
  | ok w =>
    have hstep : Steps C A p (p.queueSecure C .close w.out .high).2 :=
      queueSecure_steps .close w.out .high p (by decide) (by decide)
    unfold queueSecure at hstep
    cases hs : p.side with
    | client config =>
      rw [hs] at hstep
      cases encrypted with
      | true => exact hstep
      | false => exact .single (.plain p _ (.client config w.out hs))
    | server config =>
      rw [hs] at hstep
      cases encrypted with
      | true => exact hstep
      | false => exact .single (.plain p _ (.server config now w.out hs (hplain rfl)))

/-- Closing for good, with whatever else a client resets. -/
theorem dies_of_eq {s : Session} (hside : ∃ config, p.side = .client config)
    (hc : s.connId = p.session.connId) (hq : s.sendSeq = p.session.sendSeq) (hk : s.keys = .cleared)
    (he : s.ephemeral = .cleared ∨ s.ephemeral = p.session.ephemeral) (hr : s.reliable.pending = [])
    (ho : s.orderedReliable.pending = []) (hb : s.budget = p.session.budget)
    (ht : s.trace = p.session.trace) : Dies A p { p with
      session := s.transitionState .closed
      net := { net with pending := [], pendingBytes := 0, sockOpen := false } } := by
  unfold Session.transitionState
  split_ifs with hs
  · refine ⟨rfl, ⟨hside, hs, rfl⟩, hc, hq, hk, he, ?_, rfl, rfl, hb, [], by simp [ht], by simp⟩
    intro ch
    simp only [Session.reliableFor]
    split_ifs <;> simp [ReliableSession.contents, hr, ho]
  · refine ⟨rfl, ⟨hside, rfl, rfl⟩, hc, hq, hk, he, ?_, rfl, rfl, hb,
      [.stateChanged s.state .closed], by simp [Session.log, ht], ?_⟩
    · intro ch
      simp only [Session.reliableFor, Session.log]
      split_ifs <;> simp [ReliableSession.contents, hr, ho]
    · intro e he
      rw [List.mem_singleton] at he
      rw [he]
      trivial

theorem failConnection_steps (reason : CloseReason) (hside : ∃ config, p.side = .client config) :
    Steps C A p (p.failConnection reason) :=
  .single (.dies _ _ (dies_of_eq hside rfl rfl rfl (Or.inl rfl) rfl rfl rfl rfl))

theorem remoteClose_steps (reason : CloseReason) (hside : ∃ config, p.side = .client config) :
    Steps C A p (p.remoteClose reason) :=
  .single (.dies _ _ (dies_of_eq hside rfl rfl rfl (Or.inr rfl) rfl rfl rfl rfl))

theorem endDrain_steps (hside : ∃ config, p.side = .client config) :
    Steps C A p p.endDrain :=
  .single (.dies _ _ (dies_of_eq hside rfl rfl rfl (Or.inr rfl) rfl rfl rfl rfl))

theorem rank_le_of_closesEncrypted {s : Session} (hc : s.state ≠ .closed)
    (h : s.closesEncrypted = false) : s.state.rank ≤ ConnectionState.handshaking.rank := by
  unfold Session.closesEncrypted at h
  cases hs : s.state <;> simp_all [ConnectionState.rank]

theorem closeSession_steps (now : UInt64) (reason : CloseReason) (p : Party) :
    Steps C A p (p.closeSession C now reason) := by
  unfold closeSession
  have h1 : Steps C A p (p.mapSession fun s => { s with closeReason := reason }) :=
    steps_mapSession (Session.tidy_of_eq rfl rfl rfl rfl rfl .refl rfl rfl .refl rfl rfl rfl rfl)
  dsimp only
  split_ifs with hst
  · have h2 := queueClosePacket_steps (C := C) (A := A) now reason
      (p.mapSession fun s => { s with closeReason := reason }).session.closesEncrypted
      (p.mapSession fun s => { s with closeReason := reason }) (rank_le_of_closesEncrypted hst)
    have hsame := queueClosePacket_sameState (C := C) now reason
      (p.mapSession fun s => { s with closeReason := reason }).session.closesEncrypted
      (p.mapSession fun s => { s with closeReason := reason })
    refine (h1.trans h2).trans (steps_mapSession (Session.tidy_transitionState ?_ (by decide)))
    rw [hsame.state]
    exact ConnectionState.rank_le_closing hst
  · exact h1

theorem steps_closing (C : Crypto) (A : Channel → UInt64 → Prop) : ClosingRule C (Steps C A) where
  refl _ := .refl
  trans := .trans
  fails := failConnection_steps
  closes now reason _ := closeSession_steps now reason _

theorem violation_steps (now : UInt64) (reason : CloseReason) (p : Party) :
    Steps C A p (p.violation C now reason) :=
  (steps_closing C A).violation now reason p

theorem handleFragmentPayload_steps (now : UInt64) (f : FragmentView) (p : Party) :
    Steps C A p (p.handleFragmentPayload now f).2 := by
  obtain ⟨ordered, sequenced, reassembler, es, h, hes⟩ := handleFragmentPayload_shape now f p
  rw [h]
  refine .single (.session p _ (Session.tidy_received ordered sequenced reassembler fun e he => ?_))
  rcases hes e he with ⟨m, rfl⟩ | ⟨msg, rfl⟩ <;> exact ⟨trivial, rfl⟩

theorem onSession_steps {f : Session → Result Unit × Session}
    (hf : ∀ s : Session, s.Tidy A (f s).2) (p : Party) : Steps C A p (p.onSession f).2 :=
  .single (.session p _ (hf p.session))

/-- Taking in an acknowledgement that `A` allows. -/
theorem dispatchAck_steps (now : UInt64) (data : Bytes) (p : Party)
    (hA : ∀ ch id, readReliableAck data = .ok (ch, id) → A ch id) :
    Steps C A p (p.dispatchAck C now data) := by
  unfold dispatchAck
  cases hr : readReliableAck data with
  | error e => exact violation_steps now _ p
  | ok ci =>
    obtain ⟨ch, id⟩ := ci
    have hset : Steps C A p (p.mapSession (Session.setReliable ch
        ((p.session.reliableFor ch).acknowledge id now).2)) :=
      steps_mapSession (Session.tidy_setReliable
        (ReliableSession.contents_acknowledge id now _).subset
        (ReliableSession.sameNumbers_acknowledge id now _).nextMessageId)
    replace hset := hset.trans (steps_mapSession (Session.tidy_log
      (e := .reported ⟨ch, id, ((p.session.reliableFor ch).acknowledge id now).1⟩)
      (hA ch id hr) rfl _))
    dsimp only
    split_ifs
    · refine (hset.trans (steps_mapSession (Session.tidy_log (e := .acked ch id) ?_ rfl _))).trans
        (steps_mapSession (Session.tidy_of_eq rfl rfl rfl rfl rfl .refl rfl rfl (.single (.acked _))
          rfl rfl rfl rfl))
      exact hA ch id hr
    · exact hset

theorem acceptIncoming_steps (ch : Channel) (id : UInt64) (p : Party) :
    Steps C A p (p.acceptIncoming ch id).2 := by
  unfold acceptIncoming
  have hset : Steps C A p (p.mapSession (Session.setReliable ch
      ((p.session.reliableFor ch).acceptIncoming id).2)) :=
    steps_mapSession (Session.tidy_setReliable (List.Subset.refl _) rfl)
  dsimp only
  split_ifs
  · exact hset.trans (steps_mapSession (Session.tidy_log (e := .accepted ch id) trivial rfl _))
  · exact hset

theorem Change.side_eq {p p' : Party} (h : Change C A p p') : p'.side = p.side := by
  cases h with
  | session => rfl
  | plain _ h =>
    obtain ⟨s, net, rfl, -⟩ := h.shape
    rfl
  | dies _ h => exact h.side
  | ends => rfl
  | queue _ _ _ _ _ h => exact h.sameState.side
  | ack q _ _ h => exact h.sameState.side

theorem Steps.side_eq {p p' : Party} (h : Steps C A p p') : p'.side = p.side := by
  induction h with
  | refl => rfl
  | tail _ hc ih => exact hc.side_eq.trans ih

theorem authenticate_steps (now : UInt64) (packet : PacketView) (p : Party) :
    Steps C A p (p.authenticate C now packet).2 := by
  have hgrow := p.session.packetWindow.grows_accept packet.h.seq
  unfold authenticate
  cases p.openPacket C packet with
  | error e => exact .refl
  | ok plaintext =>
    dsimp only
    split_ifs
    · exact .refl
    · exact .single (.session p _ (Session.tidy_of_eq rfl rfl rfl rfl rfl hgrow rfl rfl .refl rfl rfl
        rfl rfl))
    · exact .single (.session p _ (Session.tidy_of_eq rfl rfl rfl rfl rfl hgrow rfl rfl .refl rfl rfl
        rfl rfl))

theorem steps_receiving (C : Crypto) (A : Channel → UInt64 → Prop) :
    ReceivingRule C (fun _ => A) (Steps C A) where
  toClosingRule := steps_closing C A
  remoteCloses := remoteClose_steps
  passes ch id t d p := steps_mapSession (Session.tidy_log (e := .passed ch id t d) trivial rfl _)
  shows packet p := steps_mapSession (Session.tidy_log (e := .onPacket packet) trivial rfl _)
  delivers ch t d seq := onSession_steps (Session.tidy_deliverApplicationMessage ch t d seq)
  reassembles := handleFragmentPayload_steps
  acknowledged := dispatchAck_steps
  acknowledges := queueControlAck_steps
  accepts := acceptIncoming_steps
  authenticates := authenticate_steps
  establishes hstate := by
    refine steps_mapSession (Session.tidy_transitionState ?_ (by decide))
    rw [hstate]
    decide
  ends := by
    rintro p ⟨config, hside⟩ hstate
    exact .single (.ends p config hside hstate)

theorem dispatchBody_steps (now : UInt64) (ch : Channel) (id : UInt64) (t : UInt8)
    (data : Bytes) (p : Party) : Steps C A p (p.dispatchBody C now ch id t data) :=
  (steps_receiving C A).dispatchBody now ch id t data p

theorem dispatchMessageFrame_steps (now : UInt64) (msg : MsgView) (p : Party)
    (hA : ∀ ch id, msg = ⟨.control, ControlType.reliableAck.code, encodeAck ch id⟩ → A ch id) :
    Steps C A p (p.dispatchMessageFrame C now msg) :=
  (steps_receiving C A).dispatchMessageFrame now msg p hA

theorem dispatchMessagePayload_steps {plaintext : Bytes} (hA : Allows A plaintext) (now : UInt64)
    (p : Party) : Steps C A p (p.dispatchMessagePayload C now plaintext) :=
  (steps_receiving C A).dispatchMessagePayload now hA p

theorem handleEstablishedPacket_steps (now : UInt64) (packet : PacketView) (p : Party)
    (hside : ∃ config, p.side = .client config)
    (hA : ∀ pt, p.openPacket C packet = .ok pt → packet.h.kind = PacketKind.message.code →
      Allows A pt) :
    Steps C A p (p.handleEstablishedPacket C now packet).2 :=
  (steps_receiving C A).handleEstablishedPacket now packet hside hA

theorem handleSessionPacket_steps (now : UInt64) (packet : PacketView) (p : Party)
    {config : ServerConfig} (hside : p.side = .server config)
    (hA : ∀ pt, p.openPacket C packet = .ok pt → packet.h.kind = PacketKind.message.code →
      Allows A pt) :
    Steps C A p (p.handleSessionPacket C now packet).2 :=
  (steps_receiving C A).handleSessionPacket now packet ⟨config, hside⟩ hA

theorem receivePacket_steps (now : UInt64) (packet : PacketView) (p : Party)
    (hA : ∀ pt, p.openPacket C packet = .ok pt → packet.h.kind = PacketKind.message.code →
      Allows A pt) :
    Steps C A p (p.receivePacket C now packet) :=
  (steps_receiving C A).receivePacket now packet p hA

theorem receive_steps (now : UInt64) (datagram : Bytes) (p : Party)
    (hA : ∀ packet pt, parsePacket datagram = .ok packet → p.openPacket C packet = .ok pt →
      packet.h.kind = PacketKind.message.code → Allows A pt) :
    Steps C A p (p.receive C now datagram) :=
  (steps_receiving C A).receive now datagram p hA

/-- Sending a pending message again queues its frame or nothing. -/
theorem resendOne_steps {ch : Channel} {m : PendingReliableMessage}
    (hch : ch.isReliable = true) (hm : m.content ∈ (p.session.reliableFor ch).contents) :
    Steps C A p (p.resendOne C ch m).2 ∧
      (p.resendOne C ch m).2.session.reliableFor ch = p.session.reliableFor ch := by
  have hq := queueMessagePacket_queued C ch m.userType m.encodedPayload m.priority p
  unfold resendOne
  cases hr : p.queueMessagePacket C ch m.userType m.encodedPayload m.priority with
  | mk rc q =>
    rw [hr] at hq
    have hstep : Steps C A p q := .single (.queue p q _ _ _ rc hq (by decide)
      fun _ _ => ⟨⟨ch, m.userType, m.encodedPayload⟩, rfl, hch, m.messageId, hm⟩)
    have hsame : q.session.reliableFor ch = p.session.reliableFor ch := by
      obtain ⟨n, es, net, rfl, -⟩ := hq.upToNumber
      rfl
    cases rc <;> exact ⟨hstep, hsame⟩

theorem resendChannel_steps {ch : Channel} (hch : ch.isReliable = true) (now : UInt64)
    (p : Party) : Steps C A p (p.resendChannel C ch now).2 := by
  -- The loop invariant: the party was reached by changes and its queue is the one passed over.
  obtain ⟨hcont, hnum, hsteps, hsame⟩ := (p.session.reliableFor ch).resendDue_spec now
    (resendOne C ch)
    (fun q => Steps C A p q ∧ q.session.reliableFor ch = p.session.reliableFor ch)
    (fun m q hm hq => by
      rw [← hq.2] at hm
      obtain ⟨h1, h2⟩ := resendOne_steps (C := C) (A := A) hch hm
      exact ⟨hq.1.trans h1, h2.trans hq.2⟩) p ⟨.refl, rfl⟩
  unfold resendChannel
  cases hr : (p.session.reliableFor ch).resendDue now (resendOne C ch) p with
  | mk rc rest =>
    rw [hr] at hcont hnum hsteps hsame
    refine hsteps.trans (steps_mapSession (Session.tidy_setReliable ?_ ?_))
    · rw [hsame, hcont]
      exact List.Subset.refl _
    · rw [hsame]
      exact hnum.nextMessageId

theorem tidy_expirePending (now : UInt64) (s : Session) : s.Tidy A (expirePending now s) where
  endpoint := rfl
  connId := rfl
  sendSeq := rfl
  keys := rfl
  ephemeral := rfl
  window := .refl
  lastSend := rfl
  numbers := by
    simp [Session.numbers, expirePending,
      (ReliableSession.sameNumbers_expireOld now _).nextMessageId]
  budget := .refl
  contents := by
    intro ch
    simp only [Session.reliableFor, expirePending]
    split_ifs <;> exact (ReliableSession.contents_expireOld now _).subset
  rank := le_rfl
  isOpen := id
  trace := ⟨[], by simp [expirePending], by simp⟩
  walks := Session.walks_of_eq rfl rfl

theorem pumpReliable_steps (now : UInt64) (p : Party) :
    Steps C A p (p.pumpReliable C now).2 := by
  refine pumpReliable_rule (fun _ => .refl) .trans ?_ resendChannel_steps ?_ now p
  · exact fun now p => steps_mapSession (tidy_expirePending now _)
  · exact fun now losses p => steps_mapSession (Session.tidy_of_eq rfl rfl rfl rfl rfl .refl rfl rfl
      (.single (.lost _ _)) rfl rfl rfl rfl)

theorem queueKeepalive_steps (p : Party) : Steps C A p (p.queueKeepalive C).2 :=
  queueSecure_steps .keepalive [] .high p (by decide) (by decide)

theorem sendPayload_steps (data : Bytes) (p : Party) : Steps C A p (p.sendPayload C data).2 := by
  unfold sendPayload
  split_ifs
  · exact .refl
  · exact .refl
  · exact queueSecure_steps .raw data .normal p (by decide) (by decide)

theorem steps_upkeep (C : Crypto) (A : Channel → UInt64 → Prop) : UpkeepRule C (Steps C A) where
  toClosingRule := steps_closing C A
  closePacket now reason encrypted hplain := queueClosePacket_steps now reason encrypted _
    fun he => rank_le_of_closesEncrypted (hplain he).1 (hplain he).2
  keepalive := queueKeepalive_steps
  startsClosing reason hstate := steps_mapSession (Session.tidy_startClosing reason hstate)
  drains := endDrain_steps
  drained := (steps_receiving C A).ends

theorem close_steps (now : UInt64) (reason : CloseReason) (p : Party) :
    Steps C A p (p.close C now reason).2 :=
  (steps_upkeep C A).close now reason p

theorem runHousekeeping_steps (now : UInt64) (p : Party) :
    Steps C A p (p.runHousekeeping C now).2 := by
  have hexpire : Steps C A p (p.expireFragments now) :=
    steps_mapSession (Session.tidy_of_eq rfl rfl rfl rfl rfl .refl rfl rfl .refl rfl rfl rfl rfl)
  exact hexpire.trans ((steps_upkeep C A).runHousekeeping now p)

end Party

end SecureCnet
