import SecureCnet.Client.Operations
import SecureCnet.Session.Continuity
import SecureCnet.Session.Failures

/-!
# The outcomes of client code

The branches of the handshake, of the receive path and of `connect` are listed once;
whatever holds of all of them is shown by going through the lists.
-/

namespace SecureCnet

open Result

theorem Party.handleEstablishedPacket_of_empty {C : Crypto} {p : Party}
    (h : p.session.keys.empty = true) (now : UInt64) (packet : PacketView) :
    ∃ e, p.handleEstablishedPacket C now packet = (.error e, p) ∧
      (e.code = .protocolError ∨ e.code = .stateError) := by
  unfold Party.handleEstablishedPacket
  simp only [h, if_true]
  split_ifs
  · exact ⟨_, rfl, Or.inl rfl⟩
  · exact ⟨_, rfl, Or.inr rfl⟩

namespace Client

variable (C : Crypto)

/-- The current hello is queued. -/
def greet (c : Client) : Result Unit × Client :=
  c.onParty (Party.queuePacketClient C c.config .handshake false c.currentHello.encode .high)

/-- The server hellos a packet may make a client take over. -/
def Offers (packet : PacketView) (c : Client) (hello : ServerHello) (keys : SessionKeys) : Prop :=
  packet.h.kind = PacketKind.handshake.code ∧ packetHeaderEncrypted packet.h = false ∧
    c.session.state = .handshaking ∧ readServerHello packet.payload = .ok hello ∧
    c.verifyServerHello C hello = .ok keys

variable (now : UInt64) (visits : Visits) (packet : PacketView)

/-- The packet is a server hello a client waits for. -/
def Awaits (c : Client) (hello : ServerHello) : Prop :=
  packetHeaderEncrypted packet.h = false ∧ c.session.state = .handshaking ∧
    readServerHello packet.payload = .ok hello

/-- What a client makes of a packet. -/
inductive RouteOutcome (c : Client) : Result Unit × Client → Prop
  | refused (e : Failure) (hkind : packet.h.kind = PacketKind.handshake.code)
      (hcode : e.code = .protocolError ∨ e.code = .stateError ∨ e.code.Malformed)
      (hno : ∀ hello, ¬Awaits packet c hello) : RouteOutcome c (.error e, c)
  | retried (token : RetryToken) (hkind : packet.h.kind = PacketKind.handshake.code)
      (hplain : packetHeaderEncrypted packet.h = false) (hstate : c.session.state = .handshaking)
      (hno : ∀ hello, ¬Awaits packet c hello) :
      RouteOutcome c ({ c with retryToken := some token }.sendClientHello C visits)
  | rejected (hello : ServerHello) (e : Failure) (hkind : packet.h.kind = PacketKind.handshake.code)
      (h : Awaits packet c hello) (hverify : c.verifyServerHello C hello = .error e) :
      RouteOutcome c (.error e, c)
  | unanswered (hello : ServerHello) (keys : SessionKeys) (e : Failure) (p : Party)
      (h : c.Offers C packet hello keys)
      (hq : (c.adoptSession keys hello now).party.queueKeepalive C = (.error e, p)) :
      RouteOutcome c (.error e, ((c.adoptSession keys hello now).withParty p).failConnection
        .internalError)
  | answered (hello : ServerHello) (keys : SessionKeys) (p : Party)
      (h : c.Offers C packet hello keys)
      (hq : (c.adoptSession keys hello now).party.queueKeepalive C = (.ok (), p)) :
      RouteOutcome c (.ok (), (c.adoptSession keys hello now).withParty
        (p.mapSession (Session.transitionState .established)))
  | misclosed (e : Failure) (hkind : packet.h.kind = PacketKind.close.code)
      (hplain : packetHeaderEncrypted packet.h = false) (hstate : c.session.state = .handshaking)
      (hread : readCloseFrame packet.payload = .error e) : RouteOutcome c (.error e, c)
  | closed (reason : CloseReason) (hkind : packet.h.kind = PacketKind.close.code)
      (hplain : packetHeaderEncrypted packet.h = false) (hstate : c.session.state = .handshaking)
      (hread : readCloseFrame packet.payload = .ok reason) :
      RouteOutcome c (.ok (), c.withParty (c.party.remoteClose reason))
  | secure (hkind : packet.h.kind ≠ PacketKind.handshake.code)
      (hclose : ¬(packet.h.kind = PacketKind.close.code ∧ c.session.state = .handshaking ∧
        packetHeaderEncrypted packet.h = false)) {rc : Result Unit} {p : Party}
      (hp : c.party.handleEstablishedPacket C now packet = (rc, p)) :
      RouteOutcome c (rc, c.withParty p)

/-- A client goes on after a packet, or gives up the connection. -/
inductive ChainOutcome : Result Unit × Client → Client → Prop
  | done (c : Client) : ChainOutcome (.ok (), c) c
  | ignored (e : Failure) (c : Client)
      (h : Party.chainReason (.client c.config) e.code = none) : ChainOutcome (.error e, c) c
  | failed (e : Failure) (c : Client) (reason : CloseReason)
      (h : Party.chainReason (.client c.config) e.code = some reason) :
      ChainOutcome (.error e, c) (c.failConnection reason)

/-- The datagram is recorded. -/
abbrev heard (datagram : Bytes) (c : Client) : Client :=
  { c with received := c.received ++ [datagram] }

/-- What becomes of a datagram. -/
inductive ReceiveOutcome (datagram : Bytes) (c : Client) : Client → Prop
  | garbled (e : Failure) (reason : CloseReason) (hp : parsePacket datagram = .error e)
      (hreason : reason = .unsupportedVersion ∨ reason = .invalidPacket) :
      ReceiveOutcome datagram c ((c.heard datagram).failConnection reason)
  | routed {packet : PacketView} {r : Result Unit × Client} {c' : Client}
      (hp : parsePacket datagram = .ok packet)
      (hroute : RouteOutcome C now visits packet (c.heard datagram) r) (hchain : ChainOutcome r c') :
      ReceiveOutcome datagram c c'

/-- A client is taken down to be set up again. -/
structure Restarted (c c' : Client) : Prop where
  config : c'.config = c.config
  wire : c'.wire = c.wire
  received : c'.received = []
  pending : c'.net.pending = []
  pendingBytes : c'.net.pendingBytes = 0
  state : c'.session.state = .idle
  keys : c'.session.keys = .cleared
  sendSeq : c'.session.sendSeq = 1
  trace : c'.session.trace = []
  budget : c'.session.budget = ((c.stop now).resetSession now).session.budget

/-- How far `connect` gets. -/
inductive ConnectOutcome (seed : Block 32) (nonce : Block 16) (c : Client) : Client → Prop
  | refused : ConnectOutcome seed nonce c c
  | halted {c' : Client} (h : Restarted now c c') : ConnectOutcome seed nonce c c'
  | begun {c' : Client} (h : Restarted now c c') (hopen : c'.net.sockOpen = true) :
      ConnectOutcome seed nonce c ((c'.beginHandshake C seed nonce now).sendClientHello C visits).2

variable {C} {c : Client} {now : UInt64} {visits : Visits} {packet : PacketView}

/-! ### The flush loop -/

/-- What a visit of the loop keeps, the loop keeps. -/
theorem flushLoop_induction {P : Result Unit × Client → Prop} (fuel : ℕ) {visits : Visits}
    (hvisit : ∀ c now socket, (now = 0 ∨ now ∈ visits.map Prod.fst) → P (.ok (), c) →
      P ((c.visitHead now socket).1.getD (.ok ()), (c.visitHead now socket).2))
    (hc : P (.ok (), c)) : P (c.flushLoop fuel visits) := by
  induction fuel generalizing visits c with
  | zero => exact hc
  | succ fuel ih =>
    unfold flushLoop
    split_ifs
    · exact hc
    have hnow : (visits.headD (0, .wouldBlock)).1 = 0 ∨
        (visits.headD (0, .wouldBlock)).1 ∈ visits.map Prod.fst := by
      cases visits <;> simp
    have hhead := hvisit c _ (visits.headD (0, .wouldBlock)).2 hnow hc
    dsimp only
    split <;> rename_i heq <;> rw [heq] at hhead
    · refine ih (fun c now socket hnow => hvisit c now socket (hnow.imp id fun hmem => ?_)) hhead
      rw [List.map_tail] at hmem
      exact List.mem_of_mem_tail hmem
    · exact hhead

theorem currentHello_length (c : Client) : c.currentHello.encode.length ≤ 128 := by
  have hretry := encodeOptional_length_le RetryToken.length_encode c.currentHello.retryToken
  have hresume := encodeOptional_length_le ResumptionToken.length_encode
    c.currentHello.resumptionToken
  simp only [ClientHello.encode, List.length_cons, List.length_append, List.Vector.toList_length]
  omega

theorem sendClientHello_induction {P : Result Unit × Client → Prop} {visits : Visits}
    (hvisit : ∀ c now socket, (now = 0 ∨ now ∈ visits.map Prod.fst) → P (.ok (), c) →
      P ((c.visitHead now socket).1.getD (.ok ()), (c.visitHead now socket).2))
    (hgreet : P (c.greet C)) : P (c.sendClientHello C visits) := by
  unfold sendClientHello
  rw [writeClientHello_eq, ByteWriter.writeBytes_fresh, if_pos c.currentHello_length]
  dsimp only
  split <;> rename_i heq <;> rw [show c.greet C = _ from heq] at hgreet
  · exact hgreet
  · exact flushLoop_induction _ hvisit hgreet

/-! ### Packets -/

theorem handleServerHelloPacket_outcome (hkind : packet.h.kind = PacketKind.handshake.code)
    (hplain : packetHeaderEncrypted packet.h = false) (hstate : c.session.state = .handshaking) :
    RouteOutcome C now visits packet c (c.handleServerHelloPacket C now packet) := by
  unfold handleServerHelloPacket
  cases hread : readServerHello packet.payload with
  | error e =>
    refine .refused e hkind (Or.inr (Or.inr (readServerHello_malformed _ e hread))) fun hello h => ?_
    cases hread.symm.trans h.2.2
  | ok hello =>
    cases hv : c.verifyServerHello C hello with
    | error e =>
      simp only [hv]
      exact .rejected hello e hkind ⟨hplain, hstate, hread⟩ hv
    | ok keys =>
      have hoffers : c.Offers C packet hello keys := ⟨hkind, hplain, hstate, hread, hv⟩
      simp only [hv]
      unfold onParty
      dsimp only
      split <;> rename_i heq
      · obtain ⟨hrc, rfl⟩ := Prod.mk.inj heq
        exact .unanswered hello keys _ _ hoffers (Prod.ext hrc rfl)
      · obtain ⟨hrc, rfl⟩ := Prod.mk.inj heq
        exact .answered hello keys _ hoffers (Prod.ext hrc rfl)

theorem handleHandshakePacket_outcome (hkind : packet.h.kind = PacketKind.handshake.code) :
    RouteOutcome C now visits packet c (c.handleHandshakePacket C now visits packet) := by
  unfold handleHandshakePacket
  split_ifs with henc hstate
  · exact .refused _ hkind (Or.inl rfl) fun hello h => by simp [h.1] at henc
  · exact .refused _ hkind (Or.inr (Or.inl rfl)) fun hello h => hstate h.2.1
  have hplain : packetHeaderEncrypted packet.h = false := by simpa using henc
  cases hp : packet.payload with
  | nil =>
    refine .refused _ hkind (Or.inr (Or.inr malformed_badPacket)) fun hello h => ?_
    cases hp.symm.trans (readServerHello_eq_ok.mp h.2.2).1
  | cons type rest =>
    have htype : type ≠ HandshakeType.serverHello.code → ∀ hello, ¬Awaits packet c hello :=
      fun hne hello h => hne (List.cons.inj (hp.symm.trans (readServerHello_eq_ok.mp h.2.2).1)).1
    dsimp only
    split_ifs with hretry hserver
    · have hno := htype (by rw [hretry]; decide)
      unfold handleRetryPacket
      cases hread : readRetry packet.payload with
      | error e => exact .refused e hkind (Or.inr (Or.inr (readRetry_malformed _ e hread))) hno
      | ok token => exact .retried token hkind hplain (not_not.mp hstate) hno
    · exact handleServerHelloPacket_outcome hkind hplain (not_not.mp hstate)
    · exact .refused _ hkind (Or.inl rfl) (htype hserver)

theorem routePacket_outcome (now : UInt64) (visits : Visits) (packet : PacketView) (c : Client) :
    RouteOutcome C now visits packet c (c.routePacket C now visits packet) := by
  unfold routePacket
  split_ifs with hkind hclose
  · exact handleHandshakePacket_outcome hkind
  · obtain ⟨hk, hstate, hplain⟩ := hclose
    have hplain : packetHeaderEncrypted packet.h = false := by simpa using hplain
    cases hread : readCloseFrame packet.payload with
    | error e => exact .misclosed e hk hplain hstate hread
    | ok reason => exact .closed reason hk hplain hstate hread
  · exact .secure hkind (by simpa using hclose) rfl

theorem handlePacket_outcome (now : UInt64) (visits : Visits) (packet : PacketView) (c : Client) :
    ChainOutcome (c.routePacket C now visits packet) (c.handlePacket C now visits packet) := by
  unfold handlePacket
  generalize c.routePacket C now visits packet = r
  obtain ⟨rc, c'⟩ := r
  cases rc with
  | ok u => exact .done c'
  | error e =>
    dsimp only
    cases h : Party.chainReason (.client c'.config) e.code with
    | none => exact .ignored e c' h
    | some reason => exact .failed e c' reason h

theorem receive_outcome (datagram : Bytes) (now : UInt64) (visits : Visits) (c : Client) :
    ReceiveOutcome C now visits datagram c (c.receive C datagram now visits) := by
  unfold receive
  cases hp : parsePacket datagram with
  | error e =>
    dsimp only
    split_ifs
    · exact .garbled e _ hp (Or.inl rfl)
    · exact .garbled e _ hp (Or.inr rfl)
  | ok packet =>
    exact .routed hp (routePacket_outcome now visits packet _) (handlePacket_outcome now visits packet _)

/-! ### Setting up a connection -/

theorem connect_outcome (server : Endpoint) (setup : SocketSetup) (seed : Block 32)
    (nonce : Block 16) (now : UInt64) (visits : Visits) (c : Client) :
    ConnectOutcome C now visits seed nonce c (c.connect C server setup seed nonce now visits).2 := by
  unfold connect resetForConnect
  cases validateClientConfig c.config with
  | error e => exact .refused
  | ok u =>
    have hidle : ((c.stop now).resetSession now).session.state = .idle :=
      Session.transitionState_state .idle _
    dsimp only [Session.transitionState]
    rw [if_pos hidle]
    cases setup with
    | openFailed e => exact .halted ⟨rfl, rfl, rfl, rfl, rfl, hidle, rfl, rfl, rfl, rfl⟩
    | connectFailed e => exact .halted ⟨rfl, rfl, rfl, rfl, rfl, hidle, rfl, rfl, rfl, rfl⟩
    | ready => exact .begun ⟨rfl, rfl, rfl, rfl, rfl, hidle, rfl, rfl, rfl, rfl⟩ rfl

end Client

end SecureCnet
