import SecureCnet.Client.Copies

/-!
# How a handshake ends with a failed authentication

A client that waits for the server closes with `AuthenticationFailed` in two cases only:
it rejects a server hello, or the server says so in a close frame. No other packet and no
call has that effect, whatever goes wrong on the way.
-/

namespace SecureCnet

open Result

theorem chainReason_authenticationFailed (config : ClientConfig) {code : Errc} :
    Party.chainReason (.client config) code = some .authenticationFailed ↔ code = .authFailed := by
  cases code <;> simp [Party.chainReason]

/-- The server hello a datagram carries in the clear. -/
def helloIn (datagram : Bytes) : Option ServerHello :=
  (plainHandshake datagram).bind fun payload => (readServerHello payload).toOption

theorem helloIn_eq_some {d : Bytes} {hello : ServerHello} : helloIn d = some hello ↔
    ∃ payload, plainHandshake d = some payload ∧ readServerHello payload = .ok hello := by
  unfold helloIn
  rw [Option.bind_eq_some_iff]
  refine exists_congr fun payload => and_congr_right fun _ => ?_
  cases readServerHello payload <;> simp [Except.toOption]

theorem helloIn_eq {d : Bytes} {packet : PacketView} (hp : parsePacket d = .ok packet)
    {hello : ServerHello} : helloIn d = some hello ↔ packet.h.kind = PacketKind.handshake.code ∧
      packetHeaderEncrypted packet.h = false ∧ readServerHello packet.payload = .ok hello := by
  rw [helloIn_eq_some]
  constructor
  · rintro ⟨payload, hpay, hr⟩
    obtain ⟨packet', hp', hk, hplain, rfl⟩ := plainHandshake_eq_some.mp hpay
    obtain rfl := Except.ok.inj (hp.symm.trans hp')
    exact ⟨hk, hplain, hr⟩
  · rintro ⟨hk, hplain, hr⟩
    exact ⟨_, plainHandshake_eq_some.mpr ⟨packet, hp, hk, hplain, rfl⟩, hr⟩

/-- The reason in a close packet in the clear. -/
def closeIn (datagram : Bytes) : Option CloseReason :=
  match parsePacket datagram with
  | .error _ => none
  | .ok packet =>
    if packet.h.kind = PacketKind.close.code ∧ packetHeaderEncrypted packet.h = false then
      (readCloseFrame packet.payload).toOption
    else none

theorem closeIn_eq {d : Bytes} {packet : PacketView} (hp : parsePacket d = .ok packet)
    {reason : CloseReason} : closeIn d = some reason ↔ packet.h.kind = PacketKind.close.code ∧
      packetHeaderEncrypted packet.h = false ∧ readCloseFrame packet.payload = .ok reason := by
  unfold closeIn
  simp only [hp, Option.ite_none_right_eq_some, and_assoc]
  cases readCloseFrame packet.payload <;> simp [Except.toOption]

theorem Party.runHousekeeping_handshaking {C : Crypto} {p : Party} {config : ClientConfig}
    (hs : p.side = .client config) (hst : p.session.state = .handshaking) (now : UInt64) :
    (p.runHousekeeping C now).2.session.state = .handshaking ∨
      (p.runHousekeeping C now).2.session.closeReason = .establishTimeout := by
  unfold runHousekeeping
  simp only [mapSession_side, hs, mapSession_session, hst, if_true]
  split_ifs
  · exact Or.inr (failConnection_closeReason _ _)
  · exact Or.inl hst

namespace Client

variable {C : Crypto} {c c' : Client} {packet : PacketView} {datagram : Bytes} {now : UInt64}
  {visits : Visits}

/-- The client has closed for failed authentication. -/
def AuthFailed (c : Client) : Prop :=
  c.session.state = .closed ∧ c.session.closeReason = .authenticationFailed

theorem not_authFailed_of_handshaking (h : c.session.state = .handshaking) : ¬ c.AuthFailed := by
  rintro ⟨hclosed, -⟩
  rw [h] at hclosed
  cases hclosed

theorem failConnection_authFailed {reason : CloseReason} :
    (c.failConnection reason).AuthFailed ↔ reason = .authenticationFailed :=
  ⟨fun h => (Party.failConnection_closeReason reason c.party).symm.trans h.2,
    fun h => ⟨failConnection_state reason c, (Party.failConnection_closeReason reason c.party).trans h⟩⟩

/-! ### The error chain -/

theorem ChainOutcome.authFailed_iff {e : Failure} (h : ChainOutcome (.error e, c) c')
    (hc : ¬ c.AuthFailed) : c'.AuthFailed ↔ e.code = .authFailed := by
  rw [← chainReason_authenticationFailed c.config]
  cases h with
  | ignored _ _ h => simp [h, hc]
  | failed _ _ reason h => simp [h, failConnection_authFailed]

/-- A result that is no failed authentication. -/
structure Harmless (r : Result Unit × Client) : Prop where
  code : FailsWith Errc.NotAuth r.1
  client : ¬ r.2.AuthFailed

theorem Harmless.chain {r : Result Unit × Client} (h : Harmless r) (hchain : ChainOutcome r c') :
    ¬ c'.AuthFailed := by
  obtain ⟨rc, c⟩ := r
  cases rc with
  | ok u =>
    cases hchain
    exact h.client
  | error e =>
    rw [hchain.authFailed_iff h.client]
    exact h.code e rfl

theorem harmless_error {e : Failure} (he : e.code.NotAuth) (hst : c.session.state = .handshaking) :
    Harmless (.error e, c) :=
  ⟨fun _ h => by cases h; exact he, not_authFailed_of_handshaking hst⟩

theorem notAuth_of_refused {code : Errc}
    (h : code = .protocolError ∨ code = .stateError ∨ code.Malformed) : code.NotAuth := by
  rcases h with rfl | rfl | h
  · decide
  · decide
  · exact h.notAuth

/-! ### Sending the hello -/

theorem visitHead_notAuth (now : UInt64) (socket : SocketResult) (c : Client) :
    ∀ rc, (c.visitHead now socket).1 = some rc → FailsWith Errc.NotAuth rc := by
  intro rc h
  unfold visitHead at h
  dsimp only at h
  split at h
  · cases h
  · have hrc : ∀ blocked opened : Bool, FailsWith Errc.NotAuth (if blocked then .ok ()
        else if opened then fail .socketError "send() failed"
        else fail .invalidArg "socket not open") := by
      intro blocked opened
      split_ifs
      · exact failsWith_ok _
      · exact failsWith_fail (by decide) _
      · exact failsWith_fail (by decide) _
    obtain rfl := Option.some.inj h
    exact hrc _ _

theorem sendClientHello_harmless (visits : Visits) (hst : c.session.state = .handshaking) :
    Harmless (c.sendClientHello C visits) := by
  have hcode : FailsWith Errc.NotAuth (c.sendClientHello C visits).1 := by
    refine sendClientHello_induction (P := fun r => FailsWith Errc.NotAuth r.1) ?_
      (queuePacketClient_notAuth (C := C) c.config .handshake false c.currentHello.encode .high c.party)
    intro c now socket _ _
    cases h : (c.visitHead now socket).1 with
    | none => exact failsWith_ok _
    | some rc => exact visitHead_notAuth now socket c rc h
  exact ⟨hcode, not_authFailed_of_handshaking ((sendClientHello_quiet visits c).state.trans hst)⟩

/-! ### Packets during the handshake -/

theorem handshake_code_ne : PacketKind.handshake.code ≠ PacketKind.close.code := by decide

/-- Both ways a packet makes a handshaking client close for failed authentication. -/
theorem RouteOutcome.authFailed_iff {r : Result Unit × Client}
    (h : RouteOutcome C now visits packet c r) (hchain : ChainOutcome r c') (hc : c.Tame)
    (hst : c.session.state = .handshaking) :
    c'.AuthFailed ↔ (∃ hello e, (packet.h.kind = PacketKind.handshake.code ∧
        packetHeaderEncrypted packet.h = false ∧ readServerHello packet.payload = .ok hello) ∧
        c.verifyServerHello C hello = .error e ∧ e.code = .authFailed) ∨
      packet.h.kind = PacketKind.close.code ∧ packetHeaderEncrypted packet.h = false ∧
        readCloseFrame packet.payload = .ok .authenticationFailed := by
  have hnone : packet.h.kind = PacketKind.handshake.code → (∀ hello e, Awaits packet c hello →
      c.verifyServerHello C hello ≠ .error e) → ¬((∃ hello e,
        (packet.h.kind = PacketKind.handshake.code ∧ packetHeaderEncrypted packet.h = false ∧
          readServerHello packet.payload = .ok hello) ∧ c.verifyServerHello C hello = .error e ∧
          e.code = .authFailed) ∨ packet.h.kind = PacketKind.close.code ∧
        packetHeaderEncrypted packet.h = false ∧
        readCloseFrame packet.payload = .ok .authenticationFailed) := by
    rintro hkind hno (⟨hello, e, ⟨-, hplain, hr⟩, hv, -⟩ | ⟨hclose, -⟩)
    · exact hno hello e ⟨hplain, hst, hr⟩ hv
    · exact handshake_code_ne (hkind.symm.trans hclose)
  have hverified : ∀ {hello keys}, c.Offers C packet hello keys → ∀ hello' e,
      Awaits packet c hello' → c.verifyServerHello C hello' ≠ .error e := by
    rintro hello keys ⟨-, -, -, hr, hv⟩ hello' e hawaits hv'
    obtain rfl := Except.ok.inj (hr.symm.trans hawaits.2.2)
    cases hv.symm.trans hv'
  cases h with
  | refused e hkind hcode hno =>
    exact iff_of_false ((harmless_error (notAuth_of_refused hcode) hst).chain hchain)
      (hnone hkind fun hello e hawaits => absurd hawaits (hno hello))
  | retried token hkind hplain hstate hno =>
    have hretried : ({ c with retryToken := some token } : Client).session.state = .handshaking := hst
    exact iff_of_false ((sendClientHello_harmless visits hretried).chain hchain)
      (hnone hkind fun hello e hawaits => absurd hawaits (hno hello))
  | rejected hello e hkind hawaits hv =>
    rw [hchain.authFailed_iff (not_authFailed_of_handshaking hst)]
    constructor
    · exact fun he => Or.inl ⟨hello, e, ⟨hkind, hawaits.1, hawaits.2.2⟩, hv, he⟩
    · rintro (⟨hello', e', ⟨-, -, hr'⟩, hv', he'⟩ | ⟨hclose, -⟩)
      · obtain rfl := Except.ok.inj (hawaits.2.2.symm.trans hr')
        obtain rfl := Except.error.inj (hv.symm.trans hv')
        exact he'
      · exact absurd (hkind.symm.trans hclose) handshake_code_ne
  | unanswered hello keys e p hoffers hq =>
    have hcode := queuePacketClient_notAuth (C := C) c.config .keepalive true [] .high
      (c.adoptSession keys hello now).party
    rw [show Party.queuePacketClient C c.config .keepalive true [] .high
      (c.adoptSession keys hello now).party = _ from hq] at hcode
    refine iff_of_false (Harmless.chain ⟨hcode, ?_⟩ hchain) (hnone hoffers.1 (hverified hoffers))
    rw [failConnection_authFailed]
    decide
  | answered hello keys p hoffers hq =>
    refine iff_of_false ?_ (hnone hoffers.1 (hverified hoffers))
    cases hchain
    exact fun h => absurd ((Session.transitionState_state .established _).symm.trans h.1) (by decide)
  | misclosed e hkind hplain hstate hread =>
    refine iff_of_false ((harmless_error (readCloseFrame_notAuth _ e hread) hst).chain hchain) ?_
    rintro (⟨hello, e, ⟨hk, -⟩, -⟩ | ⟨-, -, hr⟩)
    · exact handshake_code_ne (hk.symm.trans hkind)
    · cases hread.symm.trans hr
  | closed reason hkind hplain hstate hread =>
    cases hchain
    constructor
    · intro h
      obtain rfl := (Party.remoteClose_closeReason reason _).symm.trans h.2
      exact Or.inr ⟨hkind, hplain, hread⟩
    · rintro (⟨hello, e, ⟨hk, -⟩, -⟩ | ⟨-, -, hr⟩)
      · exact absurd (hk.symm.trans hkind) handshake_code_ne
      · obtain rfl := Except.ok.inj (hread.symm.trans hr)
        exact ⟨Party.remoteClose_state _ _, Party.remoteClose_closeReason _ _⟩
  | secure hkind hclose hsecure =>
    obtain ⟨e, he, hcode⟩ := hc.handleEstablishedPacket (C := C) (by rw [hst]) now packet
    obtain ⟨rfl, rfl⟩ := Prod.mk.inj (hsecure.symm.trans he)
    have hcode := notAuth_of_refused (hcode.imp id Or.inl)
    refine iff_of_false ((harmless_error hcode hst).chain hchain) ?_
    rintro (⟨hello, e, ⟨hk, -⟩, -⟩ | ⟨hk, hplain, -⟩)
    · exact hkind hk
    · exact hclose ⟨hk, hst, hplain⟩

/-- Both ways a datagram makes a handshaking client close for failed authentication. -/
theorem receive_authFailed_iff (hc : c.Tame) (hst : c.session.state = .handshaking) :
    (c.receive C datagram now visits).AuthFailed ↔
      (∃ hello e, helloIn datagram = some hello ∧ c.verifyServerHello C hello = .error e ∧
        e.code = .authFailed) ∨ closeIn datagram = some .authenticationFailed := by
  have h := receive_outcome (C := C) datagram now visits c
  generalize c.receive C datagram now visits = c' at h
  cases h with
  | garbled e reason hp hreason =>
    have hhello : helloIn datagram = none := by
      unfold helloIn plainHandshake
      rw [hp]
      rfl
    have hclose : closeIn datagram = none := by
      unfold closeIn
      rw [hp]
    refine iff_of_false ?_ (by simp [hhello, hclose])
    rw [failConnection_authFailed]
    rcases hreason with rfl | rfl <;> decide
  | routed hp hroute hchain =>
    simp only [helloIn_eq hp, closeIn_eq hp]
    exact hroute.authFailed_iff hchain hc hst

/-! ### Calls during the handshake -/

theorem connect_not_authFailed (server : Endpoint) (setup : SocketSetup) (seed : Block 32)
    (nonce : Block 16) (now : UInt64) (visits : Visits) (hc : ¬ c.AuthFailed) :
    ¬ (c.connect C server setup seed nonce now visits).2.AuthFailed := by
  have h := connect_outcome (C := C) server setup seed nonce now visits c
  generalize (c.connect C server setup seed nonce now visits).2 = c' at h
  cases h with
  | refused => exact hc
  | halted h => exact fun hfail => absurd (h.state.symm.trans hfail.1) (by decide)
  | begun h =>
    exact (sendClientHello_harmless visits (Session.transitionState_state .handshaking _)).client

/-- No call has that effect, but for the application's own close. -/
theorem act_not_authFailed (hst : c.session.state = .handshaking) {a : Act}
    (ha : a.datagram = none) (hclose : ∀ now, a ≠ .close now .authenticationFailed) :
    ¬ (c.act C a).AuthFailed := by
  have hc := not_authFailed_of_handshaking hst
  have hne : c.session.state ≠ .established := by simp [hst]
  cases a with
  | connect server setup seed nonce now visits =>
    exact connect_not_authFailed server setup seed nonce now visits hc
  | stop now => exact fun h => absurd ((stop_cleared now c).state.symm.trans h.1) (by decide)
  | visit now socket =>
    obtain ⟨budget, lastSendMs, net, wire, hshape, -⟩ := c.visitHead_shape now socket
    change ¬ (c.visitHead now socket).2.AuthFailed
    rw [hshape]
    exact hc
  | pumpReliable now =>
    rw [act, pumpReliable_idle hne]
    exact hc
  | receive datagram now visits => cases ha
  | housekeep now =>
    change ¬ (c.withParty (c.party.runHousekeeping C now).2).AuthFailed
    rcases Party.runHousekeeping_handshaking (C := C) (p := c.party) rfl hst now with h | h
    · exact not_authFailed_of_handshaking h
    · exact fun hfail => absurd (h.symm.trans hfail.2) (by decide)
  | send options type payload now =>
    rw [act, send_idle hne]
    exact hc
  | sendPayload data =>
    rw [act, sendPayload_idle hne]
    exact hc
  | close now reason =>
    change ¬ (c.withParty (c.party.close C now reason).2).AuthFailed
    rcases Party.close_client (C := C) (p := c.party) rfl now reason with h | ⟨-, h⟩
    · rw [h]
      exact hc
    · intro hfail
      obtain rfl := h.symm.trans hfail.2
      exact hclose now rfl

end Client

end SecureCnet
