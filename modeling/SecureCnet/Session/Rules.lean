import SecureCnet.Session.Receive

/-!
# Rules for session code

The code that receives, closes and keeps house is put together from a few actions. A
preorder of session states that holds across each of these actions holds across all of
that code. The structures of this module list the actions, and their theorems go through
the code once for every such preorder.
-/

namespace SecureCnet

namespace Session

theorem emitAll_eq (out : List BufferedMessage) (s : Session) :
    out.foldl (fun s m => s.emitMessage ⟨.reliableOrdered, m.1, m.2⟩) s = { s with
      trace := s.trace ++ out.map fun m => .emitted ⟨.reliableOrdered, m.1, m.2⟩ } := by
  induction out generalizing s with
  | nil => simp
  | cons m out ih =>
    rw [List.foldl_cons, ih]
    simp [emitMessage, log]

/-- Delivery moves a delivery window and emits messages. -/
theorem deliverApplicationMessage_shape (ch : Channel) (t : UInt8) (d : Bytes) (seq : UInt64)
    (s : Session) : ∃ ordered sequenced es, (s.deliverApplicationMessage ch t d seq).2 =
      { s with ordered, sequenced, trace := s.trace ++ es } ∧
      ∀ e ∈ es, ∃ msg, e = .emitted msg := by
  unfold deliverApplicationMessage
  split_ifs
  · cases s.ordered.accept seq t d with
    | mk rc ordered =>
      cases rc with
      | error e => exact ⟨ordered, s.sequenced, [], by simp, by simp⟩
      | ok released =>
        dsimp only
        rw [emitAll_eq]
        refine ⟨ordered, s.sequenced, _, rfl, fun e he => ?_⟩
        obtain ⟨m, -, rfl⟩ := List.mem_map.mp he
        exact ⟨_, rfl⟩
  · dsimp only
    split_ifs
    · exact ⟨s.ordered, _, [_], rfl, by simp⟩
    · exact ⟨s.ordered, (s.sequenced.accept seq).2, [], by simp, by simp⟩
  · exact ⟨s.ordered, s.sequenced, [_], rfl, by simp⟩

end Session

namespace Party

theorem deliver_shape (ch : Channel) (t : UInt8) (d : Bytes) (seq : UInt64) (p : Party) :
    ∃ ordered sequenced es, (p.onSession (Session.deliverApplicationMessage ch t d seq)).2 =
      { p with session := { p.session with ordered, sequenced, trace := p.session.trace ++ es } } ∧
      ∀ e ∈ es, ∃ msg, e = .emitted msg := by
  obtain ⟨ordered, sequenced, es, h, hes⟩ :=
    Session.deliverApplicationMessage_shape ch t d seq p.session
  exact ⟨ordered, sequenced, es, congrArg (fun s => { p with session := s }) h, hes⟩

/-- A fragment changes the reassembler, and may complete a message that is delivered. -/
theorem handleFragmentPayload_shape (now : UInt64) (f : FragmentView) (p : Party) :
    ∃ ordered sequenced reassembler es, (p.handleFragmentPayload now f).2 =
      { p with session := { p.session with
          ordered, sequenced, reassembler, trace := p.session.trace ++ es } } ∧
      ∀ e ∈ es, (∃ m, e = .reassembled m) ∨ ∃ msg, e = .emitted msg := by
  unfold handleFragmentPayload
  split_ifs
  · exact ⟨p.session.ordered, p.session.sequenced, p.session.reassembler, [], by simp, by simp⟩
  have hacc := p.session.reassembler.accept_state now f Session.deliverReassembledMessage p.session
  cases hr : p.session.reassembler.accept now f Session.deliverReassembledMessage p.session with
  | mk rc rest =>
    obtain ⟨r, s⟩ := rest
    rw [hr] at hacc
    have hs : ∃ ordered sequenced es, s = { p.session with
        ordered, sequenced, trace := p.session.trace ++ es } ∧
        ∀ e ∈ es, (∃ m, e = .reassembled m) ∨ ∃ msg, e = .emitted msg := by
      rcases hacc with h | ⟨m, h⟩
      · exact ⟨p.session.ordered, p.session.sequenced, [], by rw [show s = _ from h]; simp, by simp⟩
      · obtain ⟨ordered, sequenced, es, heq, hes⟩ := Session.deliverApplicationMessage_shape
          m.channel m.type m.payload m.deliverySequence (p.session.log (.reassembled m))
        refine ⟨ordered, sequenced, .reassembled m :: es, (show s = _ from h).trans ?_, ?_⟩
        · exact heq.trans (by simp [Session.log])
        · simpa using fun e he => Or.inr (hes e he)
    obtain ⟨ordered, sequenced, es, rfl, hes⟩ := hs
    cases rc <;> exact ⟨ordered, sequenced, r, es, rfl, hes⟩

/-- The side of a session is fixed, and queueing keeps its state. -/
structure SameState (p p' : Party) : Prop where
  side : p'.side = p.side
  state : p'.session.state = p.session.state

theorem queueClosePacket_sameState {C : Crypto} (now : UInt64) (reason : CloseReason)
    (encrypted : Bool) (p : Party) : p.SameState (p.queueClosePacket C now reason encrypted).2 := by
  unfold queueClosePacket
  split
  · exact ⟨rfl, rfl⟩
  · cases p.side with
    | client config =>
      dsimp only [queuePacketClient]
      split_ifs <;> exact ⟨rfl, rfl⟩
    | server config =>
      dsimp only [queuePacketServer, queuePlainServer]
      split_ifs <;> exact ⟨rfl, rfl⟩

theorem authenticate_side {C : Crypto} (now : UInt64) (packet : PacketView) (p : Party) :
    (p.authenticate C now packet).2.side = p.side := by
  unfold authenticate
  split
  · rfl
  · split_ifs
    · rfl
    · dsimp only
      split_ifs <;> rfl

theorem showPacket_side (packet : PacketView) (plaintext : Bytes) (p : Party) :
    (p.showPacket packet plaintext).side = p.side := by
  unfold showPacket
  dsimp only
  split_ifs <;> rfl

theorem showPacket_state (packet : PacketView) (plaintext : Bytes) (p : Party) :
    (p.showPacket packet plaintext).session.state =
      if p.session.state = .handshaking then .established else p.session.state := by
  unfold showPacket Session.transitionState
  dsimp only
  split_ifs with hstate
  · simp [log, mapSession, Session.log, hstate]
  · rfl

/-- What `authenticate` returns is the opened packet. -/
theorem authenticate_eq_ok {C : Crypto} {now : UInt64} {packet : PacketView} {p p' : Party}
    {plaintext : Bytes} (h : p.authenticate C now packet = (.ok plaintext, p')) :
    p.openPacket C packet = .ok plaintext := by
  unfold authenticate at h
  cases ho : p.openPacket C packet with
  | error e => simp [ho] at h
  | ok pt =>
    rw [ho] at h
    dsimp only at h
    split_ifs at h <;> simp_all [fail]

theorem dispatchMessagePayload_encode {C : Crypto} {msg : MsgView} (h : msg.data.length < 2 ^ 16)
    (now : UInt64) (p : Party) :
    p.dispatchMessagePayload C now msg.encode = p.dispatchMessageFrame C now msg := by
  have hread := readMessage_encode h []
  rw [List.append_nil] at hread
  unfold dispatchMessagePayload dispatchFrames
  simp only [hread]
  split_ifs with hc
  · rfl
  · rw [MsgView.length_encode, Nat.add_comm]
    unfold dispatchFrames
    simp [readMessage_nil, fail]

/-- The frames of a plaintext hold only acknowledgements that `A` allows. -/
def Allows (A : Channel → UInt64 → Prop) (plaintext : Bytes) : Prop :=
  (∀ ch id, A ch id) ∨ ∃ msg : MsgView, plaintext = msg.encode ∧ msg.data.length < 2 ^ 16 ∧
    ∀ ch id, msg = ⟨.control, ControlType.reliableAck.code, encodeAck ch id⟩ → A ch id

/-! ### Ending a session -/

/-- A preorder that holds across the ways a violation ends a session. -/
structure ClosingRule (C : Crypto) (R : Party → Party → Prop) : Prop where
  refl (p : Party) : R p p
  trans {p p' p'' : Party} (h : R p p') (h' : R p' p'') : R p p''
  fails {p : Party} (reason : CloseReason) (hside : ∃ config, p.side = .client config) :
    R p (p.failConnection reason)
  closes {p : Party} (now : UInt64) (reason : CloseReason)
    (hside : ∃ config, p.side = .server config) : R p (p.closeSession C now reason)

section

variable {C : Crypto} {A : UInt64 → Channel → UInt64 → Prop} {R : Party → Party → Prop} {p : Party}

theorem ClosingRule.violation (h : ClosingRule C R) (now : UInt64) (reason : CloseReason)
    (p : Party) : R p (p.violation C now reason) := by
  unfold Party.violation
  cases hs : p.side with
  | client config => exact h.fails reason ⟨config, hs⟩
  | server config => exact h.closes now reason ⟨config, hs⟩

theorem ClosingRule.orViolation (h : ClosingRule C R) (now : UInt64) (reason : CloseReason)
    {r : Result Unit × Party} (hr : R p r.2) : R p (orViolation C now reason r) := by
  obtain ⟨rc, q⟩ := r
  cases rc with
  | ok u => exact hr
  | error e => exact h.trans hr (h.violation now reason q)

/-- The end of the error chain. -/
inductive ChainOutcome (C : Crypto) (now : UInt64) : Result Unit × Party → Party → Prop
  | done {q : Party} : ChainOutcome C now (.ok (), q) q
  | ignored {e : Failure} {q : Party} (h : chainReason q.side e.code = none) :
      ChainOutcome C now (.error e, q) q
  | violated {e : Failure} {q : Party} {reason : CloseReason}
      (h : chainReason q.side e.code = some reason) :
      ChainOutcome C now (.error e, q) (q.violation C now reason)

theorem receivePacket_client {config : ClientConfig} (hs : p.side = .client config) (now : UInt64)
    (packet : PacketView) : ChainOutcome C now (p.handleEstablishedPacket C now packet)
      (p.receivePacket C now packet) := by
  unfold receivePacket
  rw [hs]
  dsimp only
  cases p.handleEstablishedPacket C now packet with
  | mk rc q =>
    cases rc with
    | ok u => exact .done
    | error e =>
      dsimp only
      cases h : chainReason q.side e.code with
      | none => exact .ignored h
      | some reason => exact .violated h

theorem receivePacket_server {config : ServerConfig} (hs : p.side = .server config) (now : UInt64)
    (packet : PacketView) : ChainOutcome C now (p.handleSessionPacket C now packet)
      (p.receivePacket C now packet) := by
  unfold receivePacket
  rw [hs]
  dsimp only
  cases p.handleSessionPacket C now packet with
  | mk rc q =>
    cases rc with
    | ok u => exact .done
    | error e =>
      dsimp only
      cases h : chainReason q.side e.code with
      | none => exact .ignored h
      | some reason => exact .violated h

theorem ClosingRule.chain (h : ClosingRule C R) {now : UInt64} {r : Result Unit × Party} {q : Party}
    (hchain : ChainOutcome C now r q) (hr : R p r.2) : R p q := by
  cases hchain with
  | done | ignored => exact hr
  | violated => exact h.trans hr (h.violation now _ _)

/-! ### Receiving -/

/-- A preorder that holds across the actions of receiving; `A` bounds the acks taken, with
the time. -/
structure ReceivingRule (C : Crypto) (A : UInt64 → Channel → UInt64 → Prop)
    (R : Party → Party → Prop) : Prop extends ClosingRule C R where
  remoteCloses {p : Party} (reason : CloseReason) (hside : ∃ config, p.side = .client config) :
    R p (p.remoteClose reason)
  passes (ch : Channel) (id : UInt64) (t : UInt8) (d : Bytes) (p : Party) :
    R p (p.log (.passed ch id t d))
  shows (packet : PacketView) (p : Party) : R p (p.log (.onPacket packet))
  delivers (ch : Channel) (t : UInt8) (d : Bytes) (seq : UInt64) (p : Party) :
    R p (p.onSession (Session.deliverApplicationMessage ch t d seq)).2
  reassembles (now : UInt64) (f : FragmentView) (p : Party) : R p (p.handleFragmentPayload now f).2
  acknowledged (now : UInt64) (data : Bytes) (p : Party)
    (hA : ∀ ch id, readReliableAck data = .ok (ch, id) → A now ch id) :
    R p (p.dispatchAck C now data)
  acknowledges (ch : Channel) (id : UInt64) (p : Party) : R p (p.queueControlAck C ch id).2
  accepts (ch : Channel) (id : UInt64) (p : Party) : R p (p.acceptIncoming ch id).2
  authenticates (now : UInt64) (packet : PacketView) (p : Party) :
    R p (p.authenticate C now packet).2
  establishes {p : Party} (hstate : p.session.state = .handshaking) :
    R p (p.mapSession (Session.transitionState .established))
  ends {p : Party} (hside : ∃ config, p.side = .server config)
    (hstate : p.session.state = .closing) : R p (p.mapSession (Session.transitionState .closed))

namespace ReceivingRule

variable (h : ReceivingRule C A R)
include h

theorem deliver (now : UInt64) (ch : Channel) (t : UInt8) (d : Bytes) (seq : UInt64) (p : Party) :
    R p (Party.orViolation C now .protocolError
      (p.onSession (Session.deliverApplicationMessage ch t d seq))) :=
  h.orViolation now _ (h.delivers ch t d seq p)

theorem dispatchUserData (now : UInt64) (ch : Channel) (id : UInt64) (t : UInt8) (data : Bytes)
    (p : Party) : R p (p.dispatchUserData C now ch id t data) := by
  unfold Party.dispatchUserData
  split_ifs
  · cases readOrderedPayload data with
    | error e => exact h.violation now _ p
    | ok su => exact h.trans (h.passes ..) (h.deliver ..)
  · exact h.trans (h.passes ..) (h.deliver ..)

theorem dispatchBody (now : UInt64) (ch : Channel) (id : UInt64) (t : UInt8) (data : Bytes)
    (p : Party) : R p (p.dispatchBody C now ch id t data) := by
  unfold Party.dispatchBody
  split_ifs
  · cases readFragmentPayload data with
    | error e => exact h.dispatchUserData now ch id t data p
    | ok f => exact h.orViolation now _ (h.reassembles now f p)
  · exact h.dispatchUserData now ch id t data p

theorem dispatchReliable (now : UInt64) (msg : MsgView) (p : Party) :
    R p (p.dispatchReliable C now msg) := by
  unfold Party.dispatchReliable
  cases readReliablePayload msg.data with
  | error e => exact h.violation now _ p
  | ok idd =>
    have haccept := h.trans (h.acknowledges msg.channel idd.1 p) (h.accepts msg.channel idd.1 _)
    dsimp only
    split_ifs
    · exact h.trans haccept (h.dispatchBody ..)
    · exact haccept

/-- One frame; an acknowledgement in it is one that `A` allows. -/
theorem dispatchMessageFrame (now : UInt64) (msg : MsgView) (p : Party)
    (hA : ∀ ch id, msg = ⟨.control, ControlType.reliableAck.code, encodeAck ch id⟩ → A now ch id) :
    R p (p.dispatchMessageFrame C now msg) := by
  obtain ⟨ch, t, d⟩ := msg
  unfold Party.dispatchMessageFrame
  cases ch with
  | unreliable => exact h.deliver ..
  | reliable => exact h.dispatchReliable now _ p
  | reliableOrdered => exact h.dispatchReliable now _ p
  | sequencedUnreliable =>
    dsimp only
    cases readSequencedPayload d with
    | error e => exact h.violation now _ p
    | ok sd => exact h.deliver ..
  | control =>
    dsimp only [dispatchControl]
    split_ifs with hack hfrag
    · refine h.acknowledged now d p fun ch id hr => hA ch id ?_
      rw [(readReliableAck_eq_ok.mp hr).1, hack]
    · cases readFragmentPayload d with
      | error e => exact h.violation now _ p
      | ok f => exact h.orViolation now _ (h.reassembles now f p)
    · exact h.violation now _ p

theorem dispatchFrames (now : UInt64) (hA : ∀ ch id, A now ch id) (fuel : ℕ) (r : Bytes)
    (p : Party) :
    R p (p.dispatchFrames C now fuel r) := by
  induction fuel generalizing r p with
  | zero => exact h.refl p
  | succ fuel ih =>
    unfold Party.dispatchFrames
    cases readMessage r with
    | error e =>
      dsimp only
      split_ifs
      · exact h.refl p
      · exact h.violation now _ p
    | ok mr =>
      have hframe := h.dispatchMessageFrame now mr.1 p fun ch id _ => hA ch id
      dsimp only
      split_ifs
      · exact hframe
      · exact h.trans hframe (ih _ _)

theorem dispatchMessagePayload {plaintext : Bytes} (now : UInt64) (hA : Allows (A now) plaintext)
    (p : Party) : R p (p.dispatchMessagePayload C now plaintext) := by
  rcases hA with hA | ⟨msg, rfl, hlen, hA⟩
  · exact h.dispatchFrames now hA _ _ p
  · rw [dispatchMessagePayload_encode hlen]
    exact h.dispatchMessageFrame now msg p hA

theorem handleEstablishedPacket (now : UInt64) (packet : PacketView)
    (hside : ∃ config, p.side = .client config)
    (hA : ∀ pt, p.openPacket C packet = .ok pt → packet.h.kind = PacketKind.message.code →
      Allows (A now) pt) :
    R p (p.handleEstablishedPacket C now packet).2 := by
  unfold Party.handleEstablishedPacket
  split_ifs
  · exact h.refl p
  · exact h.refl p
  · exact h.refl p
  have hauth := h.authenticates now packet p
  have hsame := authenticate_side (C := C) now packet p
  cases ha : p.authenticate C now packet with
  | mk rc q =>
    rw [ha] at hauth hsame
    cases rc with
    | error e => exact hauth
    | ok pt =>
      dsimp only
      cases hk : PacketKind.ofCode packet.h.kind with
      | none => exact hauth
      | some kind =>
        cases kind with
        | raw => exact hauth
        | handshake => exact hauth
        | keepalive => exact hauth
        | message =>
          exact h.trans hauth (h.dispatchMessagePayload now
            (hA pt (authenticate_eq_ok ha) (PacketKind.ofCode_eq_some.mp hk)) q)
        | close =>
          dsimp only
          cases readCloseFrame pt with
          | error e => exact hauth
          | ok reason => exact h.trans hauth (h.remoteCloses reason (hsame ▸ hside))

theorem showPacket (packet : PacketView) (plaintext : Bytes) (p : Party) :
    R p (p.showPacket packet plaintext) := by
  unfold Party.showPacket
  dsimp only
  split_ifs with hstate
  · exact h.trans (h.establishes hstate) (h.shows _ _)
  · exact h.shows _ p

theorem handleSessionPacket (now : UInt64) (packet : PacketView)
    (hside : ∃ config, p.side = .server config)
    (hA : ∀ pt, p.openPacket C packet = .ok pt → packet.h.kind = PacketKind.message.code →
      Allows (A now) pt) :
    R p (p.handleSessionPacket C now packet).2 := by
  unfold Party.handleSessionPacket
  split_ifs
  · exact h.refl p
  · exact h.refl p
  · exact h.refl p
  have hauth := h.authenticates now packet p
  have hsame := authenticate_side (C := C) now packet p
  cases ha : p.authenticate C now packet with
  | mk rc q =>
    rw [ha] at hauth hsame
    cases rc with
    | error e => exact hauth
    | ok pt =>
      dsimp only
      have hest := h.trans hauth (h.showPacket packet pt q)
      replace hsame := (showPacket_side packet pt q).trans hsame
      generalize q.showPacket packet pt = r at hest hsame
      cases hk : PacketKind.ofCode packet.h.kind with
      | none => exact hest
      | some kind =>
        cases kind with
        | raw => exact hest
        | handshake => exact hest
        | keepalive => exact hest
        | message =>
          exact h.trans hest (h.dispatchMessagePayload now
            (hA pt (authenticate_eq_ok ha) (PacketKind.ofCode_eq_some.mp hk)) r)
        | close =>
          dsimp only
          cases readCloseFrame pt with
          | error e => exact hest
          | ok reason =>
            dsimp only
            split_ifs with hclosing
            · exact h.trans hest (h.closes now reason (hsame ▸ hside))
            · exact h.trans hest (h.ends (hsame ▸ hside) (not_not.mp hclosing))

theorem receivePacket (now : UInt64) (packet : PacketView) (p : Party)
    (hA : ∀ pt, p.openPacket C packet = .ok pt → packet.h.kind = PacketKind.message.code →
      Allows (A now) pt) :
    R p (p.receivePacket C now packet) := by
  cases hs : p.side with
  | client config =>
    exact h.chain (receivePacket_client hs now packet)
      (h.handleEstablishedPacket now packet ⟨config, hs⟩ hA)
  | server config =>
    exact h.chain (receivePacket_server hs now packet)
      (h.handleSessionPacket now packet ⟨config, hs⟩ hA)

theorem receive (now : UInt64) (datagram : Bytes) (p : Party)
    (hA : ∀ packet pt, parsePacket datagram = .ok packet → p.openPacket C packet = .ok pt →
      packet.h.kind = PacketKind.message.code → Allows (A now) pt) :
    R p (p.receive C now datagram) := by
  unfold Party.receive
  cases hs : p.side with
  | client config =>
    cases hp : parsePacket datagram with
    | error e =>
      dsimp only
      split_ifs
      · exact h.refl p
      · exact h.fails _ ⟨config, hs⟩
      · exact h.fails _ ⟨config, hs⟩
    | ok packet =>
      dsimp only
      split_ifs
      · exact h.refl p
      · exact h.receivePacket now packet p fun pt => hA packet pt hp
  | server config =>
    cases hp : parsePacket datagram with
    | error e => exact h.refl p
    | ok packet =>
      dsimp only
      split_ifs
      · exact h.refl p
      · exact h.receivePacket now packet p fun pt => hA packet pt hp

end ReceivingRule

/-! ### Closing, housekeeping and retransmission -/

/-- Fragments of messages that took too long are dropped. -/
def expireFragments (now : UInt64) (p : Party) : Party :=
  p.mapSession fun s => { s with reassembler := s.reassembler.expireOld now }

/-- A preorder that holds across the actions of closing, housekeeping and retransmission. -/
structure UpkeepRule (C : Crypto) (R : Party → Party → Prop) : Prop extends ClosingRule C R where
  closePacket {p : Party} (now : UInt64) (reason : CloseReason) (encrypted : Bool)
    (hplain : encrypted = false →
      p.session.state ≠ .closed ∧ p.session.closesEncrypted = false) :
    R p (p.queueClosePacket C now reason encrypted).2
  keepalive (p : Party) : R p (p.queueKeepalive C).2
  startsClosing {p : Party} (reason : CloseReason) (hstate : p.session.state ≠ .closed) :
    R p (p.mapSession (Session.startClosing reason))
  drains {p : Party} (hside : ∃ config, p.side = .client config) : R p p.endDrain
  drained {p : Party} (hside : ∃ config, p.side = .server config)
    (hstate : p.session.state = .closing) : R p (p.mapSession (Session.transitionState .closed))

namespace UpkeepRule

variable (h : UpkeepRule C R)
include h

theorem close (now : UInt64) (reason : CloseReason) (p : Party) :
    R p (p.close C now reason).2 := by
  unfold Party.close
  cases hs : p.side with
  | server config => exact h.closes now reason ⟨config, hs⟩
  | client config =>
    dsimp only
    split_ifs with hst
    · exact h.refl p
    have hopen : p.session.state ≠ .closed := fun hc => hst (Or.inl hc)
    have hqueue := h.closePacket now reason p.session.closesEncrypted fun hplain => ⟨hopen, hplain⟩
    have hsame := queueClosePacket_sameState (C := C) now reason p.session.closesEncrypted p
    cases hr : p.queueClosePacket C now reason p.session.closesEncrypted with
    | mk rc q =>
      rw [hr] at hqueue hsame
      cases rc with
      | error e => exact h.trans hqueue (h.fails reason ⟨config, hsame.side.trans hs⟩)
      | ok u => exact h.trans hqueue (h.startsClosing reason (by rwa [hsame.state]))

/-- Housekeeping, after old fragments were dropped. -/
theorem runHousekeeping (now : UInt64) (p : Party) :
    R (p.expireFragments now) (p.runHousekeeping C now).2 := by
  unfold Party.runHousekeeping
  dsimp only
  rw [← expireFragments]
  generalize p.expireFragments now = q
  cases hs : q.side with
  | client config =>
    dsimp only
    split_ifs with h1 h2 h3 h4 h5
    · exact h.fails _ ⟨config, hs⟩
    · exact h.refl q
    · have hsame := queueClosePacket_sameState (C := C) now .idleTimeout true q
      refine h.trans (h.closePacket now .idleTimeout true (by simp)) (h.startsClosing _ ?_)
      rw [hsame.state, h3.1]
      decide
    · exact h.keepalive q
    · exact h.drains ⟨config, hs⟩
    · exact h.refl q
  | server config =>
    dsimp only
    split_ifs with h1 h2 h3 h4
    · exact h.closes now _ ⟨config, hs⟩
    · exact h.closes now _ ⟨config, hs⟩
    · exact h.keepalive q
    · exact h.drained ⟨config, hs⟩ h4.1
    · exact h.refl q

end UpkeepRule

/-- `pump_reliable` for a preorder that holds across its passes. -/
theorem pumpReliable_rule (hrefl : ∀ p, R p p) (htrans : ∀ {p p' p''}, R p p' → R p' p'' → R p p'')
    (hexpire : ∀ now (p : Party), R p (p.mapSession (expirePending now)))
    (hresend : ∀ {ch : Channel}, ch.isReliable = true → ∀ now (p : Party),
      R p (p.resendChannel C ch now).2)
    (hloss : ∀ now losses (p : Party),
      R p (p.mapSession fun s => { s with budget := s.budget.onLoss now losses }))
    (now : UInt64) (p : Party) : R p (p.pumpReliable C now).2 := by
  unfold pumpReliable
  split_ifs
  · exact hrefl p
  have hreliable : Channel.reliable.isReliable = true := rfl
  have hordered : Channel.reliableOrdered.isReliable = true := rfl
  have h1 := htrans (hexpire now p) (hresend hreliable now _)
  dsimp only
  generalize (p.mapSession (expirePending now)).resendChannel C .reliable now = r at h1
  have h2 := htrans h1 (hresend hordered now _)
  generalize r.2.resendChannel C .reliableOrdered now = r' at h2
  split_ifs
  · exact h1
  · exact h2
  · exact htrans h2 (hloss ..)
  · exact h2

end

end Party

end SecureCnet
