import SecureCnet.Client.AuthFailure

/-!
# What a closed client still holds

Every way to close a connection clears the session keys. The ephemeral secret key is
cleared when a server hello is taken over and when a connection fails; a client that
is told to close during the handshake, or closes then by itself and drains, keeps it.
-/

namespace SecureCnet

namespace Party

variable {C : Crypto} {A : Channel → UInt64 → Prop} {p p' : Party}

/-- Closing clears the keys, and the ephemeral key pair is cleared or stays as it is. -/
structure Clears (p p' : Party) : Prop where
  keys : (p.session.state = .closed → p.session.keys = .cleared) →
    p'.session.state = .closed → p'.session.keys = .cleared
  ephemeral : p'.session.ephemeral = .cleared ∨ p'.session.ephemeral = p.session.ephemeral

theorem Clears.refl (p : Party) : p.Clears p := ⟨id, Or.inr rfl⟩

theorem Clears.trans {p'' : Party} (h : p.Clears p') (h' : p'.Clears p'') : p.Clears p'' where
  keys hp := h'.keys (h.keys hp)
  ephemeral := by
    rcases h'.ephemeral with hc | he
    · exact Or.inl hc
    · rw [he]
      exact h.ephemeral

theorem Clears.secretKey (h : p.Clears p') (hp : p.session.ephemeral.secretKey = Block.zero 32) :
    p'.session.ephemeral.secretKey = Block.zero 32 := by
  rcases h.ephemeral with hc | he
  · rw [hc]
    rfl
  · rw [he, hp]

theorem Lasts.clears (h : p.Lasts p') (hs : p'.session.state = p.session.state) : p.Clears p' where
  keys hp hc := h.keys.trans (hp (hs ▸ hc))
  ephemeral := Or.inr h.ephemeral

theorem Change.clears (hside : ∃ config, p.side = .client config) (h : Change C A p p') :
    p.Clears p' := by
  cases h with
  | session s h => exact ⟨fun hp hc => h.keys.trans (hp (h.isOpen hc)), Or.inr h.ephemeral⟩
  | dies _ h => exact ⟨fun _ _ => h.keys, h.ephemeral⟩
  | ends config hs hstate =>
    -- Only server sessions end this way.
    obtain ⟨config', hclient⟩ := hside
    rw [hs] at hclient
    cases hclient
  | queue _ _ _ _ _ h => exact h.lasts.clears h.state_eq
  | ack q _ _ h => exact (h.lasts.clears h.state_eq).trans ⟨id, Or.inr rfl⟩
  | plain _ h =>
    obtain ⟨s, net, rfl, rfl | rfl, -⟩ := h.shape <;> exact ⟨id, Or.inr rfl⟩

theorem Steps.clears (hside : ∃ config, p.side = .client config) (h : Steps C A p p') :
    p.Clears p' := by
  induction h with
  | refl => exact .refl p
  | tail hs hc ih =>
    rw [← Steps.side_eq hs] at hside
    exact ih.trans (hc.clears hside)

theorem Ran.clears (hside : ∃ config, p.side = .client config) (h : p.Ran C p') :
    p.Clears p' := by
  cases h with
  | steps h => exact h.clears hside
  | sends h => exact h.lasts.clears h.state_eq

end Party

namespace Client

variable {C : Crypto} {H : ServerHello → SessionKeys → Prop} {c c' : Client}

def secretCleared (c : Client) : Bool := c.session.ephemeral.secretKey = Block.zero 32

/-- A closed client holds no key material. -/
def Zeroed (c : Client) : Prop :=
  c.session.state = .closed → c.session.keys = .cleared ∧ c.secretCleared = true

/-- The ephemeral secret is there only as long as there are no session keys. -/
structure Guarded (c : Client) : Prop where
  tame : c.Tame
  secret : c.secretCleared = true ∨ c.session.keys = .cleared
  established : c.session.state = .established → c.secretCleared = true
  closed : c.session.state = .closed → c.session.keys = .cleared

theorem secretCleared_of_eq (h : c'.session.ephemeral = c.session.ephemeral) :
    c'.secretCleared = c.secretCleared := by
  unfold secretCleared
  rw [h]

theorem Change.secretCleared (h : Change C H c c') (hc : c.secretCleared = true) :
    c'.secretCleared = true := by
  have hzero : c.session.ephemeral.secretKey = Block.zero 32 := of_decide_eq_true hc
  rcases h.cases with ⟨p, rfl, hran, -⟩ | hquiet | ⟨hello, keys, now, p, rfl, -, -, h, -⟩
  · exact decide_eq_true ((hran.clears ⟨c.config, rfl⟩).secretKey hzero)
  · exact (secretCleared_of_eq hquiet.ephemeral).trans hc
  · exact decide_eq_true ((h.clears ⟨c.config, rfl⟩).secretKey rfl)

theorem Steps.secretCleared (h : Steps C H c c') (hc : c.secretCleared = true) :
    c'.secretCleared = true := by
  induction h with
  | refl => exact hc
  | tail _ hchange ih => exact hchange.secretCleared ih

theorem Change.guarded (h : Change C H c c') (hc : c.Guarded) : c'.Guarded := by
  have htame := h.tame hc.tame
  rcases h.cases with ⟨p, rfl, hran, hrank⟩ | hquiet | ⟨hello, keys, now, p, rfl, hstate, -, h, -⟩
  · have hclears := hran.clears ⟨c.config, rfl⟩
    refine ⟨htame, ?_, ?_, hclears.keys hc.closed⟩
    · by_cases hclosed : p.session.state = .closed
      · exact Or.inr (hclears.keys hc.closed hclosed)
      · have hlasts := hran.lasts hclosed
        rcases hc.secret with hs | hk
        · exact Or.inl ((secretCleared_of_eq hlasts.ephemeral).trans hs)
        · exact Or.inr (hlasts.keys.trans hk)
    · intro hest
      have hlasts := hran.lasts (by rw [show p.session.state = _ from hest]; decide)
      exact (secretCleared_of_eq hlasts.ephemeral).trans
        (hc.established (established_of_rank hest hran.rank hrank))
  · have hsecret := secretCleared_of_eq hquiet.ephemeral
    refine ⟨htame, ?_, fun hs => ?_, fun hs => ?_⟩
    · rw [hsecret, hquiet.keys]
      exact hc.secret
    · exact hsecret.trans (hc.established (hquiet.state.symm.trans hs))
    · exact hquiet.keys.trans (hc.closed (hquiet.state.symm.trans hs))
  · have hclears := h.clears ⟨c.config, rfl⟩
    have hsecret : ((c.adoptSession keys hello now).withParty p).secretCleared = true :=
      decide_eq_true (hclears.secretKey rfl)
    refine ⟨htame, Or.inl hsecret, fun _ => hsecret, hclears.keys fun hclosed => ?_⟩
    exact absurd (hstate.symm.trans hclosed) (by decide)

theorem Steps.guarded (h : Steps C H c c') (hc : c.Guarded) : c'.Guarded := by
  induction h with
  | refl => exact hc
  | tail _ hchange ih => exact hchange.guarded ih

theorem guarded_of_keys (hk : c.session.keys = .cleared) (hs : c.session.state ≠ .established) :
    c.Guarded :=
  ⟨fun _ => hk, Or.inr hk, fun h => absurd h hs, fun _ => hk⟩

theorem act_guarded (hc : c.Guarded) (a : Act) : (c.act C a).Guarded := by
  rcases act_cases (C := C) hc.tame a with h | h | ⟨c₀, hb, h⟩
  · refine h.guarded ?_
    rw [noting_eq]
    exact ⟨hc.tame, hc.secret, hc.established, hc.closed⟩
  · exact guarded_of_keys h.keys (by rw [h.state]; decide)
  · exact h.guarded (guarded_of_keys hb.keys (by rw [hb.state]; decide))

theorem acts_guarded (hc : c.Guarded) (l : List Act) : (c.acts C l).Guarded := by
  induction l generalizing c with
  | nil => exact hc
  | cons a l ih => exact ih (act_guarded hc a)

theorem create_guarded (config : ClientConfig) (now : UInt64) : (create config now).Guarded :=
  guarded_of_keys rfl (by simp [create])

/-! ### Ends of a connection that has a secret -/

theorem zeroed_of_open (h : c.session.state ≠ .closed) : c.Zeroed := fun hc => absurd hc h

theorem failConnection_zeroed (reason : CloseReason) (p : Party) (c : Client) :
    (c.withParty (p.failConnection reason)).Zeroed := by
  intro _
  have hkeys := Session.transitionState_keys .closed
  have heph := Session.transitionState_ephemeral .closed
  exact ⟨hkeys _, decide_eq_true (congrArg KeyPair.secretKey (heph _))⟩

theorem ChainOutcome.zeroed {r : Result Unit × Client} (h : ChainOutcome r c') (hr : r.2.Zeroed) :
    c'.Zeroed := by
  cases h with
  | done | ignored => exact hr
  | failed e c reason => exact failConnection_zeroed reason c.party c

/-- Only a close frame in the clear that reaches the client in its handshake spares the secret. -/
theorem receive_zeroed_iff (hkeys : c.session.keys = .cleared)
    (hopen : c.session.state ≠ .closed) (hsecret : c.secretCleared = false) (datagram : Bytes)
    (now : UInt64) (visits : Visits) :
    (c.receive C datagram now visits).Zeroed ↔
      ¬(c.session.state = .handshaking ∧ (closeIn datagram).isSome = true) := by
  have h := receive_outcome (C := C) datagram now visits c
  generalize c.receive C datagram now visits = c' at h
  cases h with
  | garbled e reason hp =>
    exact iff_of_true (failConnection_zeroed reason _ _) (by simp [closeIn, hp])
  | @routed packet _ _ hp hroute hchain =>
    rw [Option.isSome_iff_exists]
    simp only [closeIn_eq hp]
    have hkind : packet.h.kind = PacketKind.handshake.code → ¬(c.session.state = .handshaking ∧
        ∃ reason, packet.h.kind = PacketKind.close.code ∧ packetHeaderEncrypted packet.h = false ∧
          readCloseFrame packet.payload = .ok reason) := by
      rintro hk ⟨-, reason, hclose, -⟩
      exact handshake_code_ne (hk.symm.trans hclose)
    cases hroute with
    | refused e hk | rejected hello e hk =>
      exact iff_of_true (hchain.zeroed (zeroed_of_open hopen)) (hkind hk)
    | retried token hk =>
      refine iff_of_true (hchain.zeroed (zeroed_of_open ?_)) (hkind hk)
      rw [(sendClientHello_quiet visits _).state]
      exact hopen
    | unanswered hello keys e p hoffers =>
      exact iff_of_true (hchain.zeroed (failConnection_zeroed .internalError _ _)) (hkind hoffers.1)
    | answered hello keys p hoffers =>
      refine iff_of_true (hchain.zeroed (zeroed_of_open ?_)) (hkind hoffers.1)
      rw [withParty_session, Party.mapSession_session, Session.transitionState_state]
      decide
    | misclosed e hk hplain hstate hread =>
      refine iff_of_true (hchain.zeroed (zeroed_of_open hopen)) ?_
      rintro ⟨-, reason, -, -, hr⟩
      cases hread.symm.trans hr
    | closed reason hk hplain hstate hread =>
      refine iff_of_false (fun hz => ?_) (not_not.mpr ⟨hstate, reason, hk, hplain, hread⟩)
      cases hchain
      have hkept := (hz (Party.remoteClose_state reason _)).2
      rw [secretCleared_of_eq (c := c) (Session.transitionState_ephemeral .closed _),
        hsecret] at hkept
      cases hkept
    | secure hk hclose hsecure =>
      refine iff_of_true (hchain.zeroed (zeroed_of_open ?_)) ?_
      · obtain ⟨e, he, -⟩ := Party.handleEstablishedPacket_of_empty (C := C) (p := c.party)
          (by rw [show c.party.session.keys = _ from hkeys]; exact SessionKeys.empty_cleared) now packet
        obtain ⟨-, rfl⟩ := Prod.mk.inj (hsecure.symm.trans he)
        exact hopen
      · rintro ⟨hstate, reason, hk, hplain, -⟩
        exact hclose ⟨hk, hstate, hplain⟩

theorem connect_zeroed (server : Endpoint) (setup : SocketSetup) (seed : Block 32)
    (nonce : Block 16) (now : UInt64) (visits : Visits) (hz : c.Zeroed) :
    (c.connect C server setup seed nonce now visits).2.Zeroed := by
  have h := connect_outcome (C := C) server setup seed nonce now visits c
  generalize (c.connect C server setup seed nonce now visits).2 = c' at h
  cases h with
  | refused => exact hz
  | halted h => exact zeroed_of_open (by rw [h.state]; decide)
  | begun h =>
    refine zeroed_of_open ?_
    rw [(sendClientHello_quiet visits _).state, beginHandshake, Session.transitionState_state]
    decide

theorem close_zeroed (now : UInt64) (reason : CloseReason) (hz : c.Zeroed) :
    (c.onParty (Party.close C now reason)).2.Zeroed := by
  change (c.withParty (c.party.close C now reason).2).Zeroed
  unfold Party.close
  rw [show c.party.side = .client c.config from rfl]
  dsimp only
  split_ifs with hdone
  · exact hz
  · split
    · exact failConnection_zeroed reason _ c
    · refine zeroed_of_open ?_
      dsimp only [withParty_session, Party.mapSession_session, Session.startClosing]
      rw [Session.transitionState_state]
      decide

/-- The close drain of a connection is over. -/
def drained (now : UInt64) (c : Client) : Bool :=
  c.session.state = .closing && c.session.lastSendMs ≠ 0 &&
    c.config.closeDrainMs ≤ now - c.session.lastSendMs

theorem housekeep_zeroed_iff (hc : c.Guarded) (hopen : c.session.state ≠ .closed)
    (hsecret : c.secretCleared = false) (now : UInt64) :
    (c.onParty (Party.runHousekeeping C now)).2.Zeroed ↔ c.drained now = false := by
  have hne : c.session.state ≠ .established := by
    intro hest
    rw [hc.established hest] at hsecret
    cases hsecret
  unfold onParty Party.runHousekeeping drained
  dsimp only [party, Party.mapSession]
  split_ifs with h₁ h₂ h₃ h₄ h₅
  · exact iff_of_true (failConnection_zeroed .establishTimeout _ c) (by simp [h₁])
  · exact iff_of_true (zeroed_of_open hopen) (by simp [h₁])
  · exact absurd h₃.1 hne
  · exact absurd h₄.1 hne
  · refine iff_of_false ?_ (by simp [h₅])
    intro hz
    have hkept := (hz (Session.transitionState_state .closed _)).2
    rw [secretCleared_of_eq (c := c) (Session.transitionState_ephemeral .closed _),
      hsecret] at hkept
    cases hkept
  · refine iff_of_true (zeroed_of_open hopen) ?_
    simpa [and_assoc] using h₅

/-- The act closes a connection and leaves its ephemeral secret behind. -/
def Act.leaks (a : Act) (c : Client) : Bool :=
  !c.secretCleared && match a with
    | .receive datagram _ _ =>
      c.net.sockOpen && c.session.state = .handshaking && (closeIn datagram).isSome
    | .housekeep now => c.drained now
    | _ => false

theorem act_zeroed_of_cleared (hc : c.Guarded) (hz : c.Zeroed) (hs : c.secretCleared = true)
    (a : Act) : (c.act C a).Zeroed := by
  have hg := act_guarded (C := C) hc a
  cases ha : a.lasting with
  | true =>
    have hnoted : (c.noting a).secretCleared = true := by
      rw [noting_eq]
      exact hs
    exact fun hclosed => ⟨hg.closed hclosed, (act_steps hc.tame ha).secretCleared hnoted⟩
  | false =>
    cases a with
    | connect server setup seed nonce now visits => exact connect_zeroed _ _ _ _ _ _ hz
    | stop now => exact zeroed_of_open (by rw [act, (stop_cleared now c).state]; decide)
    | _ => cases ha

/-- One act keeps the promise exactly when it does not leak. -/
theorem act_zeroed_iff (hc : c.Guarded) (hz : c.Zeroed) (a : Act) :
    (c.act C a).Zeroed ↔ a.leaks c = false := by
  cases hsecret : c.secretCleared with
  | true => exact iff_of_true (act_zeroed_of_cleared hc hz hsecret a) (by simp [Act.leaks, hsecret])
  | false =>
    have hopen : c.session.state ≠ .closed := by
      intro hclosed
      rw [(hz hclosed).2] at hsecret
      cases hsecret
    have hkeys : c.session.keys = .cleared := by
      rcases hc.secret with hs | hk
      · rw [hsecret] at hs
        cases hs
      · exact hk
    have hne : c.session.state ≠ .established := by
      intro hest
      rw [hc.established hest] at hsecret
      cases hsecret
    cases a with
    | connect server setup seed nonce now visits =>
      exact iff_of_true (connect_zeroed _ _ _ _ _ _ hz) (by simp [Act.leaks])
    | stop now =>
      refine iff_of_true (zeroed_of_open ?_) (by simp [Act.leaks])
      rw [act, (stop_cleared now c).state]
      decide
    | visit now socket =>
      refine iff_of_true (zeroed_of_open ?_) (by simp [Act.leaks])
      rw [act, (visitHead_quiet now socket c).state]
      exact hopen
    | pumpReliable now =>
      rw [act, pumpReliable_idle hne]
      exact iff_of_true hz (by simp [Act.leaks])
    | receive datagram now visits =>
      have hiff := receive_zeroed_iff (C := C) hkeys hopen hsecret datagram now visits
      unfold act Act.leaks
      dsimp only
      split_ifs with hsock
      · rw [hiff]
        simp [hsecret, hsock]
      · simp [hsecret, hsock, hz]
    | housekeep now =>
      have hiff := housekeep_zeroed_iff (C := C) hc hopen hsecret now
      unfold act Act.leaks
      dsimp only
      rw [hiff, hsecret]
      simp
    | send options type payload now =>
      rw [act, send_idle hne]
      exact iff_of_true hz (by simp [Act.leaks])
    | sendPayload data =>
      rw [act, sendPayload_idle hne]
      exact iff_of_true hz (by simp [Act.leaks])
    | close now reason =>
      refine iff_of_true ?_ (by simp [Act.leaks])
      exact close_zeroed now reason hz

/-- A client never holds key material while it is closed exactly when no act on the way leaks. -/
theorem closed_zeroed_iff (config : ClientConfig) (now : UInt64) (l : List Act) :
    (∀ l', l' <+: l → ((create config now).acts C l').Zeroed) ↔
      ∀ l' a, l' ++ [a] <+: l → a.leaks ((create config now).acts C l') = false := by
  have hguarded : ∀ l', ((create config now).acts C l').Guarded :=
    fun l' => acts_guarded (create_guarded config now) l'
  have hact : ∀ l' a, (create config now).acts C (l' ++ [a]) =
      ((create config now).acts C l').act C a := fun l' a => acts_append l' [a] _
  constructor
  · intro h l' a hl
    have hbefore := h l' ((List.prefix_append l' [a]).trans hl)
    have hafter := h (l' ++ [a]) hl
    rw [hact] at hafter
    exact (act_zeroed_iff (hguarded l') hbefore a).mp hafter
  · intro h l' hl
    induction l' using List.reverseRecOn with
    | nil => exact zeroed_of_open (by simp [acts, create])
    | append_singleton l' a ih =>
      have hbefore := ih ((List.prefix_append l' [a]).trans hl)
      rw [hact]
      exact (act_zeroed_iff (hguarded l') hbefore a).mpr (h l' a hl)

/-- A client that gives up during the handshake and waits until its close frame is drained. -/
def abandoned : Client :=
  [.connect (.ipv4 Block.loopback4 9000) .ready (List.Vector.replicate 32 7) (Block.zero 16)
      1000 [(1000, .sent)],
    .close 1100 .normal,
    .tick { flushVisits := [(1100, .sent)], reliableNow := 1100, housekeepingNow := 9000 }].foldl
    (fun c op => c.step .standIn op) (create {} 0)

/-- Its keys are cleared, its ephemeral secret is not. -/
theorem abandoned_keeps_secret :
    abandoned.session.state = .closed ∧ abandoned.session.keys = .cleared ∧
      abandoned.session.ephemeral.secretKey = List.Vector.replicate 32 7 ∧
      abandoned.session.ephemeral.secretKey ≠ Block.zero 32 := by
  decide +kernel

end Client

end SecureCnet
