import SecureCnet.Server.Index
import SecureCnet.Server.Validation

/-!
# What one datagram does to a stored session

A datagram reaches the stored sessions in three ways: a hello may replace the session
of the endpoint it comes from, a packet is handled by the session its header names,
and a failed packet closes that session. The first two look at the endpoint, the last
one does not when the packet is a handshake packet.
-/

namespace SecureCnet

open PairedIndex

namespace Server

variable {C : Crypto} {N : InetNtop} {srv srv' : Server} {connId : UInt64} {ps : PeerSession}
  {source : Endpoint} {hello : ClientHello} {now : UInt64}

/-! ### Eviction -/

theorem lookup_evictSession_ne {connId' : UInt64} (h : connId ≠ connId') (srv : Server) :
    (srv.evictSession connId').sessions.lookup connId = srv.sessions.lookup connId := by
  unfold evictSession
  split
  · rfl
  · exact AList.lookup_erase_ne h

theorem lookup_evictSession_self (connId : UInt64) (srv : Server) :
    (srv.evictSession connId).sessions.lookup connId = none := by
  unfold evictSession
  split
  · assumption
  · exact AList.lookup_erase _ _

theorem lookup_foldl_evictSession {l : List UInt64} (h : connId ∉ l) (srv : Server) :
    (l.foldl (fun srv connId => srv.evictSession connId) srv).sessions.lookup connId =
      srv.sessions.lookup connId := by
  induction l generalizing srv with
  | nil => rfl
  | cons connId' l ih =>
    rw [List.mem_cons, not_or] at h
    rw [List.foldl_cons, ih h.2, lookup_evictSession_ne h.1]

theorem notMem_doomed (hps : srv.sessions.lookup connId = some ps)
    (hfresh : isStale srv.config now ps.session = false) : connId ∉ srv.doomed now := by
  intro hmem
  obtain ⟨e, he, rfl⟩ := List.mem_map.mp hmem
  obtain ⟨hentry, hstale⟩ := List.mem_filter.mp he
  have hlook : srv.sessions.lookup e.1 = some e.2 := AList.mem_lookup_iff.mpr hentry
  rw [hps] at hlook
  rw [← Option.some.inj hlook, hfresh] at hstale
  cases hstale

theorem lookup_evictStaleSessions (hps : srv.sessions.lookup connId = some ps)
    (hfresh : isStale srv.config now ps.session = false) :
    (srv.evictStaleSessions now).sessions.lookup connId = some ps :=
  (lookup_foldl_evictSession (notMem_doomed hps hfresh) srv).trans hps

theorem Indexed.evictStale (h : srv.Indexed) (now : UInt64) : (srv.evictStaleSessions now).Indexed :=
  h.steps (C := .standIn) (N := .standard) (H := fun _ _ _ => False) (evictStaleSessions_steps now srv)

theorem Indexed.lookup_evictEndpoint_ne (h : srv.Indexed)
    (hps : srv.sessions.lookup connId = some ps) (hne : ps.session.endpoint ≠ source) :
    (srv.evictEndpoint source).sessions.lookup connId = some ps := by
  unfold Server.evictEndpoint findSessionByEndpoint
  cases hl : srv.endpointToConn.lookup source with
  | none => exact hps
  | some connId' =>
    obtain ⟨ps', hps', he⟩ := h.paired.backward hl
    have hown : ps'.session.connId = connId' := h.paired.own hps'
    simp only [hps']
    rw [hown, lookup_evictSession_ne, hps]
    rintro rfl
    rw [hps] at hps'
    exact hne (Option.some.inj hps' ▸ he)

theorem Indexed.lookup_evictEndpoint_eq (h : srv.Indexed)
    (hps : srv.sessions.lookup connId = some ps) :
    (srv.evictEndpoint ps.session.endpoint).sessions.lookup connId = none := by
  have hf : srv.endpointToConn.lookup ps.session.endpoint = some connId := h.paired.forward hps
  have hown : ps.session.connId = connId := h.paired.own hps
  unfold Server.evictEndpoint findSessionByEndpoint
  simp only [hf, hps]
  rw [hown]
  exact lookup_evictSession_self connId srv

/-! ### A hello -/

variable {draws : Draws} {resumed : Bool} {r : Result Unit × Server}

theorem HasRoom.length_lt {host : Host} (h : srv.HasRoom host) :
    srv.sessions.keys.length + 1 < 2 ^ 64 :=
  Nat.lt_of_le_of_lt h.sessions (UInt64.toNat_lt _)

theorem HasRoom.usable {host : Host} (h : srv.HasRoom host) (source : Endpoint)
    (candidates : List UInt64) : (srv.evictEndpoint source).usable
      ((srv.evictEndpoint source).allocateConnId candidates) = true :=
  allocateConnId_usable _ _ (lt_of_le_of_lt (Nat.succ_le_succ (length_keys_le_of_lookup
    (evictEndpoint_evicts source srv).sub)) h.length_lt)

/-- What setting a session up leaves under an id. -/
theorem CreateOutcome.lookup (h : CreateOutcome C N source hello resumed now draws srv r)
    (connId : UInt64) :
    r.2.sessions.lookup connId = (srv.evictEndpoint source).sessions.lookup connId ∨
      connId = (srv.evictEndpoint source).allocateConnId draws.connIds ∧
        (r.2.sessions.lookup connId = none ∨ r.1 = .ok () ∧
          ∃ a, srv.Prepares C source hello resumed now draws a ∧
            r.2.sessions.lookup connId = some a.peer) := by
  have hsessions : ∀ a, srv.Prepares C source hello resumed now draws a →
      (srv.greet C N source now draws a).2.sessions = (srv.seat source a).sessions :=
    fun a ha => ha.greet_replies.sameTable.sessions
  cases h with
  | keyless e => exact Or.inl rfl
  | unanswered a e ha =>
    by_cases hid : connId = a.peer.session.connId
    · refine Or.inr ⟨hid.trans ha.peer_connId, Or.inl ?_⟩
      rw [hid]
      exact lookup_evictSession_self ..
    · refine Or.inl ?_
      rw [lookup_evictSession_ne hid, hsessions a ha, lookup_seat_ne hid]
  | answered a ha =>
    dsimp only
    rw [hsessions a ha]
    by_cases hid : connId = a.peer.session.connId
    · refine Or.inr ⟨hid.trans ha.peer_connId, Or.inr ⟨rfl, a, ha, ?_⟩⟩
      rw [hid]
      exact lookup_seat_self ..
    · exact Or.inl (lookup_seat_ne hid ..)

theorem CreateOutcome.lookup_ne (h : CreateOutcome C N source hello resumed now draws srv r)
    (hid : connId ≠ (srv.evictEndpoint source).allocateConnId draws.connIds) :
    r.2.sessions.lookup connId = (srv.evictEndpoint source).sessions.lookup connId :=
  (h.lookup connId).resolve_right fun h => hid h.1

/-- Handling a hello leaves the table alone, or with a good token drops the stale sessions and,
with room, has a session set up. -/
theorem HelloOutcome.table (h : HelloOutcome C N source hello now draws srv r) :
    srv.SameTable r.2 ∧ (¬srv.Passes source now ∧ r.1 = .ok () ∨
        ∀ resumed, ¬srv.Admits C N source hello now resumed) ∨
      ∃ resumed srv₁, srv.Passes source now ∧ srv.Admits C N source hello now resumed ∧
        (srv.evictStaleSessions now).SameTable srv₁ ∧
        (srv.full source now = true ∧ r.1 = .ok () ∧ srv₁.SameTable r.2 ∨
          srv.full source now = false ∧ srv₁.HasRoom source.hostKey ∧
            CreateOutcome C N source hello resumed now draws srv₁ r) := by
  have hchecked := (checked_notes source now srv).sameTable
  cases h with
  | twoTokens e hboth => exact Or.inl ⟨.refl srv, Or.inr fun _ h => h.not_both hboth⟩
  | banned hban =>
    exact Or.inl ⟨(endpointIsBanned_notes source now srv).sameTable,
      Or.inl ⟨fun h => by simp [h.banned] at hban, rfl⟩⟩
  | limited _ hlim =>
    exact Or.inl ⟨hchecked, Or.inl ⟨fun h => by simp [h.limited] at hlim, rfl⟩⟩
  | asked token _ hnot | askedAgain token _ hnot =>
    exact Or.inl ⟨hchecked.trans (queueRetry_replies ..).sameTable, Or.inr hnot⟩
  | expired _ hnot =>
    exact Or.inl ⟨hchecked.trans (queuePlainClose_replies ..).sameTable, Or.inr hnot⟩
  | full resumed reason hpass hadm hfull =>
    exact Or.inr ⟨resumed, _, hpass, hadm, hchecked.evictStale now,
      Or.inl ⟨hfull, rfl, (queuePlainClose_replies ..).sameTable⟩⟩
  | created resumed hpass hadm hfull hroom h =>
    exact Or.inr ⟨resumed, _, hpass, hadm, hchecked.evictStale now, Or.inr ⟨hfull, hroom, h⟩⟩

theorem Indexed.sameTable (h : srv.Indexed) (hs : srv.SameTable srv') : srv'.Indexed :=
  h.of_eq hs.sessions hs.endpointToConn hs.rules.config

/-- A hello of another endpoint leaves a session alone that is not stale. -/
theorem HelloOutcome.lookup_ne (h : HelloOutcome C N source hello now draws srv r)
    (hidx : srv.Indexed) (hps : srv.sessions.lookup connId = some ps)
    (hne : ps.session.endpoint ≠ source) (hfresh : isStale srv.config now ps.session = false) :
    r.2.sessions.lookup connId = some ps := by
  have hstay := lookup_evictStaleSessions hps hfresh
  rcases h.table with ⟨hsame, -⟩ | ⟨resumed, srv₁, -, -, hstale, ⟨-, -, hsame⟩ | ⟨-, hroom, h⟩⟩
  · rw [hsame.sessions, hps]
  · rw [hsame.sessions, hstale.sessions, hstay]
  · have hkept := ((hidx.evictStale now).sameTable hstale).lookup_evictEndpoint_ne
      (hstale.sessions ▸ hstay) hne
    rw [h.lookup_ne, hkept]
    rintro rfl
    cases (usable_eq_true.mp (hroom.usable source draws.connIds)).2.symm.trans hkept

/-! ### Failed packets -/

theorem errorChain_sameTable (hnone : srv.sessions.lookup connId = none) (e : Failure) :
    srv.SameTable (srv.errorChain C source connId now e) := by
  have hnote := (noteInvalidPacket_notes source now srv).sameTable
  unfold errorChain
  split
  · exact .refl srv
  · dsimp only
    split_ifs
    · exact hnote
    · unfold closeSession
      rw [hnote.sessions, hnone]
      exact hnote

theorem lookup_errorChain_ne (source : Endpoint) (now : UInt64) {connId' : UInt64}
    (h : connId ≠ connId') (e : Failure) (srv : Server) :
    (srv.errorChain C source connId' now e).sessions.lookup connId =
      srv.sessions.lookup connId := by
  have hnote := (noteInvalidPacket_notes source now srv).sameTable
  unfold errorChain
  split
  · rfl
  · dsimp only
    split_ifs
    · rw [hnote.sessions]
    · unfold closeSession
      cases hl : (srv.noteInvalidPacket source now).sessions.lookup connId' with
      | none => rw [hnote.sessions]
      | some ps' =>
        refine (AList.lookup_insert_ne h).trans ?_
        rw [hnote.sessions]

end Server

end SecureCnet
