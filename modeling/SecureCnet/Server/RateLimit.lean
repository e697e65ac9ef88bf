import SecureCnet.Library.FixedWindow
import SecureCnet.Server.Datagram
import SecureCnet.Server.Drain
import SecureCnet.Server.Replay
import SecureCnet.Server.Upkeep

/-!
# The abuse table

A host's entry counts the hellos that were let through in the current window. The count
is a fixed-window rate limit, whatever else happens to the entry. It is also what keeps
the entry: housekeeping drops entries without hellos only, and nothing ever takes the
count back to zero.
-/

namespace SecureCnet

/-- The part of an entry that counts hellos. -/
def IpAbuseState.window (state : IpAbuseState) : FixedWindow :=
  ⟨state.windowStartedMs.toNat, state.handshakesInWindow.toNat⟩

/-- The entry is not banned, has no penalty, and its window started more than five seconds ago. -/
def IpAbuseState.Lingers (now : UInt64) (state : IpAbuseState) : Prop :=
  state.bannedUntilMs ≤ now ∧ state.invalidPenaltyScore = 0 ∧
    state.windowStartedMs.toNat + 5000 < now.toNat

namespace Server

variable {C : Crypto} {N : InetNtop} {srv srv' srv'' : Server} {host : Host} {source : Endpoint}
  {now : UInt64}

def window (host : Host) (srv : Server) : FixedWindow :=
  ((srv.ipAbuse.lookup host).getD {}).window

/-- Hellos let through in one second. -/
def handshakeLimit (srv : Server) : ℕ := srv.config.abuse.perIpHandshakeRateLimitPerSecond.toNat

/-- No hello is counted and no window restarted. -/
structure SameWindows (srv srv' : Server) : Prop where
  window : ∀ host, srv'.window host = srv.window host

theorem SameWindows.refl (srv : Server) : srv.SameWindows srv := ⟨fun _ => rfl⟩

theorem SameWindows.trans (h : srv.SameWindows srv') (h' : srv'.SameWindows srv'') :
    srv.SameWindows srv'' := ⟨fun host => (h'.window host).trans (h.window host)⟩

theorem window_setAbuseState (source : Endpoint) (state : IpAbuseState) (host : Host) (srv : Server) :
    (srv.setAbuseState source state).window host =
      if host = source.hostKey then state.window else srv.window host := by
  unfold window setAbuseState
  split_ifs with hhost
  · rw [hhost, AList.lookup_insert]
    rfl
  · rw [AList.lookup_insert_ne hhost]

theorem setAbuseState_sameWindows {state : IpAbuseState}
    (h : state.window = (srv.abuseStateFor source).window) :
    srv.SameWindows (srv.setAbuseState source state) := by
  refine ⟨fun host => ?_⟩
  rw [window_setAbuseState]
  split_ifs with hhost
  · rw [h, hhost]
    rfl
  · rfl

theorem noteInvalidPacket_sameWindows (source : Endpoint) (now : UInt64) (srv : Server) :
    srv.SameWindows (srv.noteInvalidPacket source now) := by
  unfold noteInvalidPacket
  dsimp only
  split_ifs <;> exact setAbuseState_sameWindows rfl

/-! ### The limiter -/

/-- The window is restarted when the limiter's is. -/
theorem window_renewed (now : UInt64) (state : IpAbuseState) :
    (if state.windowStartedMs = 0 ∨ now < state.windowStartedMs ∨
        1000 ≤ now - state.windowStartedMs then
      { state with windowStartedMs := now, handshakesInWindow := 0 } else state).window =
      state.window.renew 1000 now.toNat := by
  have hiff : (state.windowStartedMs = 0 ∨ now < state.windowStartedMs ∨
      1000 ≤ now - state.windowStartedMs) ↔ state.window.started = 0 ∨
        now.toNat < state.window.started ∨ state.window.started + 1000 ≤ now.toNat := by
    unfold IpAbuseState.window
    rw [← UInt64.toNat_inj, UInt64.lt_iff_toNat_lt, UInt64.le_iff_toNat_le]
    change state.windowStartedMs.toNat = 0 ∨ _ ∨ 1000 ≤ _ ↔ _
    by_cases hlt : now.toNat < state.windowStartedMs.toNat
    · simp [hlt]
    · rw [UInt64.toNat_sub_of_le _ _ (UInt64.le_iff_toNat_le.mpr (not_lt.mp hlt))]
      dsimp only
      omega
  unfold FixedWindow.renew
  by_cases hlapsed : state.windowStartedMs = 0 ∨ now < state.windowStartedMs ∨
      1000 ≤ now - state.windowStartedMs
  · rw [if_pos hlapsed, if_pos (hiff.mp hlapsed)]
    rfl
  · rw [if_neg hlapsed, if_neg (hiff.not.mp hlapsed)]

/-- `endpoint_rate_limited` is a hit of the limiter. -/
theorem endpointRateLimited_window (source : Endpoint) (now : UInt64) (srv : Server) :
    ((srv.window source.hostKey).hit srv.handshakeLimit 1000 now.toNat).1 =
        !(srv.endpointRateLimited source now).1 ∧
      ∀ host, (srv.endpointRateLimited source now).2.window host =
        if host = source.hostKey then
          ((srv.window source.hostKey).hit srv.handshakeLimit 1000 now.toNat).2
        else srv.window host := by
  have hrenewed := window_renewed now (srv.abuseStateFor source)
  have hwindow : (srv.abuseStateFor source).window = srv.window source.hostKey := rfl
  rw [hwindow] at hrenewed
  unfold FixedWindow.hit endpointRateLimited
  rw [← hrenewed]
  dsimp only
  generalize hstate : (if (srv.abuseStateFor source).windowStartedMs = 0 ∨
      now < (srv.abuseStateFor source).windowStartedMs ∨
      1000 ≤ now - (srv.abuseStateFor source).windowStartedMs then
    { srv.abuseStateFor source with windowStartedMs := now, handshakesInWindow := 0 }
    else srv.abuseStateFor source) = state
  have hiff : srv.config.abuse.perIpHandshakeRateLimitPerSecond ≤ state.handshakesInWindow ↔
      srv.handshakeLimit ≤ state.window.count := UInt32.le_iff_toNat_le
  by_cases hlimit : srv.config.abuse.perIpHandshakeRateLimitPerSecond ≤ state.handshakesInWindow
  · simp only [if_pos hlimit, if_pos (hiff.mp hlimit)]
    exact ⟨rfl, fun host => window_setAbuseState ..⟩
  · simp only [if_neg hlimit, if_neg (hiff.not.mp hlimit)]
    refine ⟨rfl, fun host => (window_setAbuseState ..).trans ?_⟩
    have hlt := UInt32.lt_iff_toNat_lt.mp (UInt32.not_le.mp hlimit)
    have hmax := srv.config.abuse.perIpHandshakeRateLimitPerSecond.toNat_lt
    have hcount : (state.handshakesInWindow + 1).toNat = state.handshakesInWindow.toNat + 1 := by
      rw [UInt32.toNat_add]
      exact Nat.mod_eq_of_lt (by simpa using by omega)
    unfold IpAbuseState.window
    dsimp only
    rw [hcount]

/-! ### Datagrams -/

theorem sameWindows_of_ipAbuse (h : srv'.ipAbuse = srv.ipAbuse) : srv.SameWindows srv' :=
  ⟨fun host => congrArg (fun t => ((t.lookup host).getD {}).window) h⟩

theorem Replies.sameWindows {dest : Endpoint} (h : srv.Replies C now dest srv') :
    srv.SameWindows srv' :=
  sameWindows_of_ipAbuse h.ipAbuse

variable {hello : ClientHello} {resumed : Bool} {draws : Draws} {packet : PacketView}
  {r : Result Unit × Server} {l : List Act}

theorem CreateOutcome.ipAbuse (h : CreateOutcome C N source hello resumed now draws srv r) :
    r.2.ipAbuse = srv.ipAbuse := by
  have hevict := (evictEndpoint_evicts source srv).ipAbuse
  cases h with
  | keyless e => exact hevict
  | unanswered a e ha =>
    exact (evictSession_evicts ..).ipAbuse.trans (ha.greet_replies.ipAbuse.trans hevict)
  | answered a ha => exact ha.greet_replies.ipAbuse.trans hevict

/-- A hello gets to the limiter. -/
def reachesLimiter (source : Endpoint) (hello : ClientHello) (now : UInt64) (srv : Server) : Bool :=
  !decide (hello.retryToken.isSome ∧ hello.resumptionToken.isSome) &&
    !(srv.endpointIsBanned source now).1

theorem endpointIsBanned_sameWindows (source : Endpoint) (now : UInt64) (srv : Server) :
    srv.SameWindows (srv.endpointIsBanned source now).2 :=
  setAbuseState_sameWindows rfl

theorem checked_window (source : Endpoint) (now : UInt64) (host : Host) (srv : Server) :
    (srv.checked source now).window host =
      if host = source.hostKey then ((srv.window host).hit srv.handshakeLimit 1000 now.toNat).2
      else srv.window host := by
  have hban := endpointIsBanned_sameWindows source now srv
  unfold checked
  rw [(endpointRateLimited_window source now (srv.endpointIsBanned source now).2).2 host]
  split_ifs with hhost
  · rw [← hhost, hban.window]
    rfl
  · exact hban.window host

/-- Past the checks of its host a hello leaves the windows alone. -/
theorem HelloOutcome.windows (h : HelloOutcome C N source hello now draws srv r) :
    (if srv.reachesLimiter source hello now then srv.checked source now else srv).SameWindows
      r.2 := by
  have hreach : (srv.endpointIsBanned source now).1 = false →
      ¬(hello.retryToken.isSome ∧ hello.resumptionToken.isSome) →
      srv.reachesLimiter source hello now = true := by
    intro hban hone
    simp only [reachesLimiter, hban, decide_eq_false hone, Bool.not_false, Bool.and_self]
  have hevict := (evictStaleSessions_evicts now (srv.checked source now)).ipAbuse
  cases h with
  | twoTokens e hboth =>
    rw [if_neg (by simp [reachesLimiter, hboth])]
    exact .refl srv
  | banned hban =>
    rw [if_neg (by simp [reachesLimiter, hban])]
    exact endpointIsBanned_sameWindows source now srv
  | limited hban _ hone =>
    rw [if_pos (hreach hban hone)]
    exact .refl _
  | asked token hpass _ hone | askedAgain token hpass _ hone =>
    rw [if_pos (hreach hpass.banned hone)]
    exact (queueRetry_replies ..).sameWindows
  | expired hpass _ hone =>
    rw [if_pos (hreach hpass.banned hone)]
    exact (queuePlainClose_replies ..).sameWindows
  | full resumed reason hpass hadm =>
    rw [if_pos (hreach hpass.banned hadm.not_both)]
    exact (sameWindows_of_ipAbuse hevict).trans (queuePlainClose_replies ..).sameWindows
  | created resumed hpass hadm _ _ h =>
    rw [if_pos (hreach hpass.banned hadm.not_both)]
    exact sameWindows_of_ipAbuse (h.ipAbuse.trans hevict)

/-- The packet is a hello that gets to the limiter. -/
def countsPacket (source : Endpoint) (packet : PacketView) (now : UInt64) (srv : Server) : Bool :=
  packet.h.kind = PacketKind.handshake.code &&
    match readHandshake packet with
    | .error _ => false
    | .ok hello => srv.reachesLimiter source hello now

theorem RunsOn.sameWindows {connId : UInt64} {f : Party → Result Unit × Party}
    (h : srv.RunsOn connId f srv') : srv.SameWindows srv' := by
  rcases h with rfl | ⟨ps, -, rfl⟩
  · exact .refl srv'
  · exact ⟨fun _ => rfl⟩

theorem errorChain_sameWindows (connId : UInt64) (e : Failure) (source : Endpoint) (now : UInt64)
    (srv : Server) : srv.SameWindows (srv.errorChain C source connId now e) := by
  have hnote := noteInvalidPacket_sameWindows source now srv
  have h := errorChain_outcome (C := C) source connId now e srv
  generalize srv.errorChain C source connId now e = srv' at h
  cases h with
  | ignored => exact .refl srv
  | noted => exact hnote
  | closed reason => exact hnote.trans (closeSession_runsOn ..).sameWindows

theorem PacketOutcome.windows (h : PacketOutcome C N source packet now draws srv srv') :
    (if srv.countsPacket source packet now then srv.checked source now else srv).SameWindows
      srv' := by
  have hother : packet.h.kind ≠ PacketKind.handshake.code →
      ¬srv.countsPacket source packet now = true := fun hkind => by simp [countsPacket, hkind]
  have hhello : ∀ hello, packet.h.kind = PacketKind.handshake.code →
      readHandshake packet = .ok hello →
      srv.countsPacket source packet now = srv.reachesLimiter source hello now :=
    fun hello hkind hread => by simp [countsPacket, hkind, hread]
  cases h with
  | faulty e hkind hread =>
    rw [if_neg (by simp [countsPacket, hread])]
    exact errorChain_sameWindows ..
  | greeted hello hkind hread h =>
    rw [hhello hello hkind hread]
    exact h.windows
  | unwelcome hello e hkind hread h =>
    rw [hhello hello hkind hread]
    exact h.windows.trans (errorChain_sameWindows ..)
  | nameless e hkind =>
    rw [if_neg (hother hkind)]
    exact errorChain_sameWindows ..
  | unknown hkind =>
    rw [if_neg (hother hkind)]
    exact (queuePlainClose_replies ..).sameWindows
  | taken ps q hkind =>
    rw [if_neg (hother hkind)]
    exact ⟨fun _ => rfl⟩
  | failed ps q e hkind =>
    rw [if_neg (hother hkind)]
    have hstore : srv.SameWindows (srv.store packet.h.connId ps q) := ⟨fun _ => rfl⟩
    exact hstore.trans (errorChain_sameWindows ..)

/-- A packet is a hit of the limiter, or changes no window. -/
theorem handlePacket_window (packet : PacketView) (draws : Draws) (source : Endpoint)
    (now : UInt64) (host : Host) (srv : Server) :
    (srv.handlePacket C N source packet now draws).window host =
      if srv.countsPacket source packet now ∧ host = source.hostKey then
        ((srv.window host).hit srv.handshakeLimit 1000 now.toNat).2
      else srv.window host := by
  have hban := endpointIsBanned_sameWindows source now srv
  have hcounts : (srv.past source packet now).countsPacket source packet now =
      srv.countsPacket source packet now := by
    unfold countsPacket reachesLimiter endpointIsBanned
    simp only [abuseStateFor_past]
  rcases handlePacket_outcome (C := C) (N := N) source packet now draws srv with
    ⟨hbanned, heq⟩ | ⟨-, h⟩
  · have hnone : srv.countsPacket source packet now = false := by
      unfold countsPacket reachesLimiter
      rw [hbanned]
      cases readHandshake packet <;> simp
    rw [heq, hban.window]
    simp [hnone]
  · have hlimit : (srv.past source packet now).handshakeLimit = srv.handshakeLimit := rfl
    have hpast : (srv.past source packet now).window host = srv.window host := hban.window host
    rw [h.windows.window, hcounts, apply_ite (window host), checked_window, hpast, hlimit,
      ← ite_and]

/-- The datagram is a hello that gets to the limiter. -/
def countsHello (source : Endpoint) (datagram : Bytes) (now : UInt64) (srv : Server) : Bool :=
  match parsePacket datagram with
  | .error _ => false
  | .ok packet => srv.countsPacket source packet now

theorem receive_window (datagram : Bytes) (draws : Draws) (source : Endpoint) (now : UInt64)
    (host : Host) (srv : Server) : (srv.receive C N source datagram now draws).window host =
      if srv.countsHello source datagram now ∧ host = source.hostKey then
        ((srv.window host).hit srv.handshakeLimit 1000 now.toNat).2
      else srv.window host := by
  unfold countsHello
  have h := receive_outcome (C := C) (N := N) source datagram now draws srv
  generalize srv.receive C N source datagram now draws = srv' at h
  cases h with
  | outdated e hp =>
    simp only [hp, Bool.false_eq_true, false_and, if_false]
    exact (queuePlainClose_replies ..).sameWindows.window host
  | garbled e hp =>
    simp only [hp, Bool.false_eq_true, false_and, if_false]
    exact (noteInvalidPacket_sameWindows ..).window host
  | known packet hp | counted packet hp =>
    simp only [hp]
    exact handlePacket_window ..

/-! ### Housekeeping -/

theorem lookup_foldl_erase {hosts : List Host} {t : AList fun _ : Host => IpAbuseState} :
    (hosts.foldl (fun t host => t.erase host) t).lookup host =
      if host ∈ hosts then none else t.lookup host := by
  induction hosts generalizing t with
  | nil => simp
  | cons host' hosts ih =>
    rw [List.foldl_cons, ih]
    by_cases hhost : host = host'
    · subst hhost
      simp
    · simp [hhost]

/-- Housekeeping drops the entries that are idle. -/
theorem lookup_expireTables (now : UInt64) (host : Host) (srv : Server) :
    (srv.expireTables now).ipAbuse.lookup host =
      (srv.ipAbuse.lookup host).filter fun state => !abuseIdle now state := by
  have hforget : ∀ (hosts : List Host) (srv : Server),
      (hosts.foldl (fun srv host => srv.forgetHost host) srv).ipAbuse = srv.ipAbuse := by
    intro hosts
    induction hosts with
    | nil => exact fun _ => rfl
    | cons host hosts ih => exact fun srv => ih (srv.forgetHost host)
  have hmem : host ∈ (srv.ipAbuse.entries.filter fun e => abuseIdle now e.2).map Sigma.fst ↔
      ∃ state, srv.ipAbuse.lookup host = some state ∧ abuseIdle now state = true := by
    constructor
    · intro h
      obtain ⟨e, he, rfl⟩ := List.mem_map.mp h
      obtain ⟨hentry, hidle⟩ := List.mem_filter.mp he
      exact ⟨e.2, AList.mem_lookup_iff.mpr hentry, hidle⟩
    · rintro ⟨state, hlookup, hidle⟩
      exact List.mem_map.mpr ⟨⟨host, state⟩,
        List.mem_filter.mpr ⟨AList.mem_lookup_iff.mp hlookup, hidle⟩, rfl⟩
  unfold expireTables
  dsimp only
  rw [lookup_foldl_erase, hforget]
  cases hlookup : srv.ipAbuse.lookup host with
  | none => simp
  | some state =>
    simp only [hmem, hlookup, Option.some.injEq, exists_eq_left', Option.filter_some]
    cases abuseIdle now state <;> simp

theorem abuseIdle_of_lingers {state : IpAbuseState} (h : state.Lingers now) :
    abuseIdle now state = decide (state.handshakesInWindow = 0) := by
  obtain ⟨hban, hscore, hstarted⟩ := h
  have hle : state.windowStartedMs ≤ now := UInt64.le_iff_toNat_le.mpr (by omega)
  have hlapsed : 5000 < now - state.windowStartedMs := by
    rw [UInt64.lt_iff_toNat_lt, UInt64.toNat_sub_of_le _ _ hle]
    exact Nat.lt_sub_of_add_lt (by simpa [Nat.add_comm] using hstarted)
  simp [abuseIdle, hban, hscore, hlapsed]

theorem visitSessions_ipAbuse (f : Party → Result Unit × Party) (keys : List UInt64)
    (srv : Server) : (visitSessions (onStored f) keys srv).2.ipAbuse = srv.ipAbuse := by
  induction keys generalizing srv with
  | nil => rfl
  | cons connId rest ih =>
    have hkeeps : (srv.onStored f connId).2.ipAbuse = srv.ipAbuse := by
      rcases onStored_runsOn connId f srv with h | ⟨ps, -, h⟩ <;> rw [h]
      rfl
    unfold visitSessions
    cases hvisit : srv.onStored f connId with
    | mk rc srv₁ =>
      rw [hvisit] at hkeeps
      cases rc with
      | error e => exact hkeeps
      | ok _ => exact (ih srv₁).trans hkeeps

/-- Housekeeping forgets every lingering entry exactly if none of them counts a hello and the
keepalives before it are all queued. -/
theorem housekeeping_forgets_iff (hC : C.IdealAead) (now evictNow : UInt64) (srv : Server) :
    (∀ host state, (srv.runHousekeeping C now evictNow).2.ipAbuse.lookup host = some state →
      ¬state.Lingers now) ↔
      ∀ host state, srv.ipAbuse.lookup host = some state → state.Lingers now →
        state.handshakesInWindow = 0 ∧
          srv.KeepalivesFit now srv.sessions.keys srv.net.pending.length := by
  have hstart : srv.Halfway srv.net.pending.length srv.sessions.keys srv :=
    ⟨rfl, fun _ _ => rfl, Or.inl rfl, fun _ _ => rfl⟩
  have hfit := hstart.visitSessions_ok_iff hC (AList.keys_nodup _) now
  have hkeeps := visitSessions_ipAbuse (Party.runHousekeeping C now) srv.sessions.keys srv
  unfold runHousekeeping
  cases hvisit : visitSessions (onStored (Party.runHousekeeping C now)) srv.sessions.keys srv with
  | mk rc srv₁ =>
    rw [hvisit] at hfit hkeeps
    change srv₁.ipAbuse = srv.ipAbuse at hkeeps
    cases rc with
    | error e =>
      have hno := mt hfit.mpr nofun
      simp only [hkeeps, hno, and_false, imp_false]
    | ok _ =>
      have hyes := hfit.mp rfl
      simp only [(evictStaleSessions_evicts ..).ipAbuse, lookup_expireTables, hkeeps, hyes, and_true]
      constructor
      · intro h host state hlookup hlingers
        by_contra hcount
        refine h host state ?_ hlingers
        rw [hlookup, Option.filter_some, abuseIdle_of_lingers hlingers]
        simp [hcount]
      · intro h host state hlookup hlingers
        obtain ⟨hold, hbusy⟩ := Option.filter_eq_some_iff.mp hlookup
        rw [abuseIdle_of_lingers hlingers, h host state hold hlingers] at hbusy
        simp at hbusy

/-- A listening server, and a datagram from the loopback address. -/
def afterDatagram (C : Crypto) (datagram : Bytes) : Server :=
  ({} : Server).acts C .standard
    [.listen .ready (Block.zero 32), .receive loopback datagram 1000 {}]

/-- Six seconds after its only hello the host is still remembered. -/
theorem quiet_host_remembered :
    let srv := afterDatagram .checksum (helloDatagram firstHello)
    let state : IpAbuseState := { windowStartedMs := 1000, handshakesInWindow := 1 }
    (srv.runHousekeeping .checksum 7000 7000).1 = .ok () ∧
      (srv.runHousekeeping .checksum 7000 7000).2.ipAbuse.lookup loopback.hostKey = some state ∧
      state.bannedUntilMs ≤ 7000 ∧ state.invalidPenaltyScore = 0 ∧
      state.windowStartedMs.toNat + 5000 < (7000 : UInt64).toNat := by
  decide +kernel

/-- A packet for a session that does not exist; it is answered with a close frame. -/
def strayPacket : Bytes :=
  (buildPacket .standIn .raw false [] 9 1 (Block.zero 32)).toOption.getD []

/-- A host that never said hello is forgotten. -/
theorem stray_host_forgotten :
    let srv := afterDatagram .standIn strayPacket
    (srv.ipAbuse.lookup loopback.hostKey).isSome ∧
      ∀ host state, (srv.runHousekeeping .standIn 7000 7000).2.ipAbuse.lookup host = some state →
        ¬state.Lingers 7000 := by
  have htable : (afterDatagram .standIn strayPacket).ipAbuse.entries = [⟨loopback.hostKey, {}⟩] := by
    decide +kernel
  have hkeys : (afterDatagram .standIn strayPacket).sessions.keys = [] := by decide +kernel
  refine ⟨by decide +kernel,
    (housekeeping_forgets_iff Crypto.standIn_idealAead 7000 7000 _).mpr ?_⟩
  intro host state hlookup _
  have hentry := AList.mem_lookup_iff.mp hlookup
  rw [htable, List.mem_singleton] at hentry
  cases hentry
  rw [hkeys]
  exact ⟨rfl, trivial⟩

/-! ### Runs -/

/-- What the clock shows at an act. -/
def Act.clock : Act → Option UInt64
  | .receive _ _ now _ | .visit now _ _ | .pumpReliable _ now | .housekeep _ now
  | .expireTables now | .evictStale now | .send _ _ _ _ _ now | .closePeer _ _ now _ => some now
  | .sendPayload .. | .listen .. | .stop => none

def Act.Serving : Act → Prop
  | .listen .. | .stop => False
  | _ => True

/-- The hello of the host that is let through, by its time. -/
def Act.passes (host : Host) (srv : Server) : Act → List ℕ
  | .receive source datagram now _ =>
    if (srv.countsHello source datagram now ∧ host = source.hostKey) ∧
      (srv.endpointRateLimited source now).1 = false then [now.toNat] else []
  | _ => []

def passes (C : Crypto) (N : InetNtop) (host : Host) : List Act → Server → List ℕ
  | [], _ => []
  | a :: l, srv => a.passes host srv ++ passes C N host l (srv.act C N a)

theorem Visited.sameWindows {i : ℕ} {pkt : PendingPacket} (h : srv.Visited now i pkt srv') :
    srv.SameWindows srv' := by
  cases h <;> exact ⟨fun _ => rfl⟩

/-- Only the limiter and housekeeping touch a window. -/
theorem act_window (host : Host) (srv : Server) {a : Act} (hserving : a.Serving) :
    (srv.act C N a).window host = srv.window host ∧ a.passes host srv = [] ∨
      (srv.window host).count = 0 ∧ (srv.act C N a).window host = {} ∧ a.passes host srv = [] ∨
      ∃ now, a.clock = some now ∧
        (srv.act C N a).window host =
          ((srv.window host).hit srv.handshakeLimit 1000 now.toNat).2 ∧
        a.passes host srv =
          if ((srv.window host).hit srv.handshakeLimit 1000 now.toNat).1 then [now.toNat] else [] := by
  cases a with
  | receive source datagram now draws =>
    have hwindow := receive_window (C := C) (N := N) datagram draws source now host srv
    by_cases hcounts : srv.countsHello source datagram now = true ∧ host = source.hostKey
    · obtain ⟨hhello, rfl⟩ := hcounts
      rw [if_pos ⟨hhello, rfl⟩] at hwindow
      refine Or.inr (Or.inr ⟨now, rfl, hwindow, ?_⟩)
      rw [(endpointRateLimited_window source now srv).1]
      simp [Act.passes, hhello]
    · rw [if_neg hcounts] at hwindow
      exact Or.inl ⟨hwindow, if_neg fun h => hcounts h.1⟩
  | visit now i socket =>
    refine Or.inl ⟨?_, rfl⟩
    unfold act
    cases hpkt : srv.net.pending[i]? with
    | none => simp only [hpkt]
    | some pkt =>
      simp only [hpkt]
      exact (visitPacket_visited now i pkt socket srv).sameWindows.window host
  | expireTables now =>
    have hlookup := lookup_expireTables now host srv
    unfold act window
    rw [hlookup]
    cases hold : srv.ipAbuse.lookup host with
    | none => exact Or.inl ⟨rfl, rfl⟩
    | some state =>
      cases hidle : abuseIdle now state with
      | false => exact Or.inl ⟨by simp [Option.filter_some, hidle], rfl⟩
      | true =>
        refine Or.inr (Or.inl ⟨?_, by simp [Option.filter_some, hidle]; rfl, rfl⟩)
        simp only [abuseIdle, Bool.and_eq_true, decide_eq_true_eq] at hidle
        simp [IpAbuseState.window, hidle.1.2]
  | pumpReliable connId now => exact Or.inl ⟨(onStored_runsOn ..).sameWindows.window host, rfl⟩
  | housekeep connId now => exact Or.inl ⟨(onStored_runsOn ..).sameWindows.window host, rfl⟩
  | evictStale now =>
    exact Or.inl ⟨(sameWindows_of_ipAbuse (evictStaleSessions_evicts now srv).ipAbuse).window host, rfl⟩
  | send endpoint connId options type payload now =>
    exact Or.inl ⟨(onPeer_runsOn ..).sameWindows.window host, rfl⟩
  | sendPayload endpoint connId data => exact Or.inl ⟨(onPeer_runsOn ..).sameWindows.window host, rfl⟩
  | closePeer endpoint connId now reason => exact Or.inl ⟨(onPeer_runsOn ..).sameWindows.window host, rfl⟩
  | listen setup secret => exact hserving.elim
  | stop => exact hserving.elim

theorem act_handshakeLimit (a : Act) (srv : Server) :
    (srv.act C N a).handshakeLimit = srv.handshakeLimit :=
  congrArg (fun config => config.abuse.perIpHandshakeRateLimitPerSecond.toNat)
    (act_steps a srv).config_eq

theorem act_accounts {a : Act} {passed : List ℕ} {last : ℕ} (hserving : a.Serving)
    (hclock : ∀ now ∈ a.clock, last ≤ now.toNat ∧ 0 < now)
    (h : (srv.window host).Accounts srv.handshakeLimit 1000 passed last) :
    ((srv.act C N a).window host).Accounts srv.handshakeLimit 1000 (passed ++ a.passes host srv)
      ((a.clock.map UInt64.toNat).getD last) := by
  have hlater : last ≤ (a.clock.map UInt64.toNat).getD last := by
    cases hnow : a.clock with
    | none => exact le_rfl
    | some now => exact (hclock now hnow).1
  rcases act_window (C := C) (N := N) host srv hserving with
    ⟨hwindow, hnone⟩ | ⟨hzero, hwindow, hnone⟩ | ⟨now, hnow, hwindow, hpasses⟩
  · rw [hwindow, hnone, List.append_nil]
    exact h.later hlater
  · rw [hwindow, hnone, List.append_nil]
    exact (h.forget hzero).later hlater
  · obtain ⟨hle, hpos⟩ := hclock now hnow
    rw [hwindow, hpasses, hnow]
    exact h.hit hle (UInt64.lt_iff_toNat_lt.mp hpos).ne' (by decide)

/-- No act takes the count of a host that was let through back to zero: its entry stays. -/
theorem acts_remember (host : Host) (hlimit : 0 < srv.handshakeLimit)
    (hserving : ∀ a ∈ l, a.Serving) (h : (srv.window host).count ≠ 0 ∨ passes C N host l srv ≠ []) :
    ∃ state, (srv.acts C N l).ipAbuse.lookup host = some state ∧ state.handshakesInWindow ≠ 0 := by
  induction l generalizing srv with
  | nil =>
    have hcount := h.resolve_right (by simp [passes])
    rw [acts_nil]
    unfold window at hcount
    cases hlookup : srv.ipAbuse.lookup host with
    | none => exact absurd (by rw [hlookup]; rfl) hcount
    | some state =>
      rw [hlookup] at hcount
      exact ⟨state, rfl, fun hzero => hcount (congrArg UInt32.toNat hzero)⟩
  | cons a l ih =>
    obtain ⟨ha, hl⟩ := List.forall_mem_cons.mp hserving
    rw [← act_handshakeLimit (C := C) (N := N) a] at hlimit
    rw [acts_cons]
    refine ih hlimit hl ?_
    rw [passes] at h
    rcases act_window (C := C) (N := N) host srv ha with
      ⟨hwindow, hnone⟩ | ⟨hzero, -, hnone⟩ | ⟨now, -, hwindow, -⟩
    · rwa [hnone, List.nil_append, ← hwindow] at h
    · rw [hnone, List.nil_append] at h
      exact Or.inr (h.resolve_left (not_not.mpr hzero))
    · rw [hwindow]
      rw [act_handshakeLimit] at hlimit
      exact Or.inl (FixedWindow.count_hit_ne_zero hlimit _ _ _)

/-- The readings of the clock in a run never go back. -/
def Ticks (last : UInt64) (l : List Act) : Prop := (last :: l.filterMap Act.clock).IsChain (· ≤ ·)

theorem acts_accounts {passed : List ℕ} {last : UInt64} (hpos : 0 < last) (hticks : Ticks last l)
    (hserving : ∀ a ∈ l, a.Serving)
    (h : (srv.window host).Accounts srv.handshakeLimit 1000 passed last.toNat) :
    ∃ last', ((srv.acts C N l).window host).Accounts srv.handshakeLimit 1000
      (passed ++ passes C N host l srv) last' := by
  induction l generalizing srv passed last with
  | nil => exact ⟨last.toNat, by simpa [passes] using h⟩
  | cons a l ih =>
    obtain ⟨ha, hl⟩ := List.forall_mem_cons.mp hserving
    have hlimit := act_handshakeLimit (C := C) (N := N) a srv
    unfold Ticks at hticks
    cases hnow : a.clock with
    | none =>
      rw [List.filterMap_cons_none hnow] at hticks
      have hnext := act_accounts (C := C) (N := N) ha (by simp [hnow]) h
      rw [hnow, ← hlimit] at hnext
      have hrest := ih hpos hticks hl hnext
      rwa [hlimit, List.append_assoc] at hrest
    | some now =>
      rw [List.filterMap_cons_some hnow, List.isChain_cons_cons] at hticks
      have hlater : 0 < now := UInt64.lt_of_lt_of_le hpos hticks.1
      have hnext := act_accounts (C := C) (N := N) ha
        (by simpa [hnow] using ⟨UInt64.le_iff_toNat_le.mp hticks.1, hlater⟩) h
      rw [hnow, ← hlimit] at hnext
      have hrest := ih hlater hticks.2 hl hnext
      rwa [hlimit, List.append_assoc] at hrest

theorem window_of_listen {setup : SocketSetup} {secret : Block 32}
    (h : srv.listen setup secret = (.ok (), srv')) (host : Host) : srv'.window host = {} := by
  unfold listen at h
  cases hvalid : validateServerConfig srv.config with
  | error e =>
    rw [hvalid] at h
    cases h
  | ok _ =>
    rw [hvalid] at h
    cases setup <;> cases h
    rfl

/-- In any second at most twice the limit of hellos from a host is let through, in the current
window at most the limit. -/
theorem hellos_limited {setup : SocketSetup} {secret : Block 32} {start : UInt64}
    (hlisten : srv.listen setup secret = (.ok (), srv')) (hstart : 0 < start)
    (hticks : Ticks start l) (hserving : ∀ a ∈ l, a.Serving) (host : Host) :
    (∀ t, (passes C N host l srv').countP (fun p => t ≤ p ∧ p < t + 1000) ≤
      2 * srv'.config.abuse.perIpHandshakeRateLimitPerSecond.toNat) ∧
    (passes C N host l srv').countP
        (fun p => ((srv'.acts C N l).window host).started ≤ p) ≤
      srv'.config.abuse.perIpHandshakeRateLimitPerSecond.toNat := by
  have hfresh : (srv'.window host).Accounts srv'.handshakeLimit 1000 [] start.toNat := by
    rw [window_of_listen hlisten]
    exact FixedWindow.accounts_fresh _
  obtain ⟨last, haccounts⟩ := acts_accounts (C := C) (N := N) hstart hticks hserving hfresh
  rw [List.nil_append] at haccounts
  exact ⟨haccounts.interval, haccounts.current.trans haccounts.count_le⟩

theorem hellos_limited_to_one :
    let srv : Server := { config := { abuse := { perIpHandshakeRateLimitPerSecond := 1 } } }
    let l := [Act.receive loopback (helloDatagram firstHello) 1000 {}, .expireTables 1500,
      .receive loopback (helloDatagram firstHello) 1900 {},
      .receive loopback (helloDatagram firstHello) 2000 {}]
    let passed := passes .checksum .standard loopback.hostKey l
      (srv.listen .ready (Block.zero 32)).2
    passed = [1000, 2000] ∧
      (∀ t, passed.countP (fun p => t ≤ p ∧ p < t + 1000) ≤ 2 * 1) := by
  refine ⟨by decide +kernel, ?_⟩
  have hlisten : ({ config := { abuse := { perIpHandshakeRateLimitPerSecond := 1 } } } :
      Server).listen .ready (Block.zero 32) = (.ok (), _) := rfl
  have hstart : (0 : UInt64) < 1 := by decide
  exact (hellos_limited hlisten hstart (by simp [Ticks, Act.clock]) (by simp [Act.Serving]) _).1

end Server

end SecureCnet
