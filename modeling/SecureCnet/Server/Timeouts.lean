import SecureCnet.Server.Replacement
import SecureCnet.Server.Table

/-!
# Timeouts

`run_housekeeping` enforces the handshake and the idle timeout: a session that is past
one of them is closed when its turn comes, so a pass that gets through leaves none.
-/

namespace SecureCnet

/-- The session is past the handshake timeout or past the idle timeout. -/
def Session.Overdue (config : ServerConfig) (now : UInt64) (s : Session) : Prop :=
  s.state = .handshaking ∧ config.handshakeTimeoutMs < now - s.startedMs ∨
    s.state = .established ∧ s.lastRecvMs ≠ 0 ∧ config.idleTimeoutMs < now - s.lastRecvMs

theorem Party.runHousekeeping_not_overdue {C : Crypto} {p : Party} {config : ServerConfig}
    (hside : p.side = .server config) (now : UInt64) :
    ¬(p.runHousekeeping C now).2.session.Overdue config now := by
  have hclosed : ∀ (reason : CloseReason) (q : Party),
      ¬(q.closeSession C now reason).session.Overdue config now := by
    intro reason q
    have hstate := closeSession_state (C := C) now reason q
    unfold Session.Overdue
    split_ifs at hstate <;> simp [hstate]
  unfold runHousekeeping
  simp only [mapSession_side, hside]
  split_ifs with hshake hidle hkeep hdrain
  · exact hclosed _ _
  · exact hclosed _ _
  · unfold queueKeepalive
    obtain ⟨n, es, net, heq, -⟩ := (queueSecure_queued C .keepalive [] .high (p.mapSession fun s =>
      { s with reassembler := s.reassembler.expireOld now })).upToNumber
    rw [heq]
    exact not_or.mpr ⟨hshake, hidle⟩
  · simp [Session.Overdue]
  · exact not_or.mpr ⟨hshake, hidle⟩

namespace Server

variable {C : Crypto} {now : UInt64}

/-- What is overdue after a round of visits was not visited. -/
theorem unvisited_of_overdue {connId : UInt64} {ps : PeerSession} (ids : List UInt64) (srv : Server)
    (hok : (visitSessions (onStored (Party.runHousekeeping C now)) ids srv).1 = .ok ())
    (hps : (visitSessions (onStored (Party.runHousekeeping C now)) ids srv).2.sessions.lookup
      connId = some ps) (hlate : ps.session.Overdue srv.config now) :
    connId ∉ ids ∧ srv.sessions.lookup connId = some ps := by
  induction ids generalizing srv with
  | nil => exact ⟨by simp, hps⟩
  | cons id rest ih =>
    unfold visitSessions onStored at hok hps
    cases hold : srv.sessions.lookup id with
    | none =>
      simp only [hold] at hok hps
      obtain ⟨hrest, hsame⟩ := ih srv hok hps hlate
      refine ⟨List.not_mem_cons_of_ne_of_not_mem ?_ hrest, hsame⟩
      rintro rfl
      cases hold.symm.trans hsame
    | some ps₀ =>
      simp only [hold, onSession] at hok hps
      cases hrun : (srv.party id ps₀).runHousekeeping C now with
      | mk rc p =>
        have hnot := Party.runHousekeeping_not_overdue (C := C) (p := srv.party id ps₀) rfl now
        rw [hrun] at hok hps hnot
        cases rc with
        | error e => cases hok
        | ok u =>
          obtain ⟨hrest, hsame⟩ := ih (srv.store id ps₀ p) hok hps hlate
          -- A session that was just visited is in time; the others are as they were.
          rcases of_lookup_store hsame with ⟨-, rfl⟩ | ⟨hne, hlookup⟩
          · exact absurd hlate hnot
          · exact ⟨List.not_mem_cons_of_ne_of_not_mem hne hrest, hlookup⟩

/-- A housekeeping pass that gets through leaves no session past a timeout. -/
theorem housekeeping_enforces_timeouts (evictNow : UInt64) (srv : Server)
    (hok : (srv.runHousekeeping C now evictNow).1 = .ok ()) (connId : UInt64) (ps : PeerSession)
    (hps : (srv.runHousekeeping C now evictNow).2.sessions.lookup connId = some ps) :
    ¬ps.session.Overdue srv.config now := by
  intro hlate
  unfold runHousekeeping at hok hps
  cases hvisit : visitSessions (onStored (Party.runHousekeeping C now)) srv.sessions.keys srv with
  | mk rc srv₁ =>
    rw [hvisit] at hok hps
    cases rc with
    | error e => cases hok
    | ok u =>
      have hps₁ := (evictStaleSessions_evicts evictNow _).sub connId ps hps
      rw [(expireTables_keeps now srv₁).1] at hps₁
      obtain ⟨hnot, hsame⟩ := unvisited_of_overdue srv.sessions.keys srv (by rw [hvisit])
        (by rw [hvisit]; exact hps₁) hlate
      exact hnot (AList.mem_keys.mp (AList.lookup_isSome.mp (by rw [hsame]; rfl)))

/-- The client of session 7 never sent a packet: six seconds later its session is being closed. -/
theorem housekeeping_enforces_timeouts_silent :
    greetedSession.session.Overdue greetedServer.config 7201 ∧
      ∀ ps, (greetedServer.runHousekeeping .checksum 7201 7201).2.sessions.lookup 7 = some ps →
        ¬ps.session.Overdue greetedServer.config 7201 :=
  ⟨by unfold Session.Overdue; decide +kernel,
    housekeeping_enforces_timeouts 7201 greetedServer (by decide +kernel) 7⟩

end Server

end SecureCnet
