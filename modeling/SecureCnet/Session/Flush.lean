import SecureCnet.Session.Inbox

/-!
# Flushing the packet queue

Both flush loops visit queued packets: a packet leaves if the send budget of its
session covers it and the socket takes it. The client always visits the head of
its queue; the server passes over packets whose session has no budget left.
-/

namespace SecureCnet

/-- What a socket does with a datagram. -/
inductive SocketResult
  | sent
  | wouldBlock
  | failed
  deriving DecidableEq, Repr

namespace Transport

def notePreauthSend (dest : Endpoint) (bytesSent now : UInt64) (net : Transport) : Transport :=
  let state := net.preauthStateFor dest.hostKey
  let state := { state with bytesSent := state.bytesSent + bytesSent, lastSeenMs := now }
  { net with preauth := net.preauth.insert dest.hostKey state }

/-- Take the packet at position `i` out of the queue. -/
def removeAt (i : ℕ) (len : ℕ) (net : Transport) : Transport :=
  { net with
    pending := net.pending.eraseIdx i
    pendingBytes := net.pendingBytes - UInt64.ofNat len }

end Transport

namespace Party

def mapBudget (f : SendBudget → SendBudget) (p : Party) : Party :=
  p.mapSession fun s => { s with budget := f s.budget }

/-- A server accounts for what it sends before a session is established. -/
def noteSent (now : UInt64) (len : ℕ) (p : Party) : Transport :=
  match p.side with
  | .client _ => p.net
  | .server _ =>
    if p.session.state = .established then p.net
    else p.net.notePreauthSend p.session.endpoint (UInt64.ofNat len) now

/-- The packet at position `i` has left. -/
def packetSent (now : UInt64) (i : ℕ) (len : ℕ) (p : Party) : Party :=
  { p with
    session := { p.session with budget := p.session.budget.spend len, lastSendMs := now }
    net := (p.noteSent now len).removeAt i len }

/-- One visit of a flush loop to the packet at position `i`, and the datagram that left. -/
def flushAt (now : UInt64) (i : ℕ) (socket : SocketResult) (p : Party) : Option Bytes × Party :=
  match p.net.pending[i]? with
  | none => (none, p)
  | some pkt =>
    if pkt.ownerConnId ≠ p.ownerConnId then (none, p)
    else
      let p := p.mapBudget (SendBudget.refillSendBudget now)
      if p.session.budget.sendBudgetBytes < UInt64.ofNat pkt.bytes.length then
        (none, p.mapBudget (SendBudget.onBackpressure now))
      else
        match socket with
        | .sent => (some pkt.bytes, p.packetSent now i pkt.bytes.length)
        | .wouldBlock => (none, p.mapBudget (SendBudget.onBackpressure now))
        | .failed => (none, p)

/-- At most the allowance of a host changes. -/
theorem noteSent_eq (now : UInt64) (len : ℕ) (p : Party) :
    ∃ preauth, p.noteSent now len = { p.net with preauth } := by
  unfold noteSent
  split
  · exact ⟨_, rfl⟩
  · split_ifs <;> exact ⟨_, rfl⟩

theorem noteSent_pending (now : UInt64) (len : ℕ) (p : Party) :
    (p.noteSent now len).pending = p.net.pending := by
  obtain ⟨preauth, hnoted⟩ := p.noteSent_eq now len
  rw [hnoted]

theorem noteSent_sockOpen (now : UInt64) (len : ℕ) (p : Party) :
    (p.noteSent now len).sockOpen = p.net.sockOpen := by
  obtain ⟨preauth, hnoted⟩ := p.noteSent_eq now len
  rw [hnoted]

variable {C : Crypto} {A : Channel → UInt64 → Prop}

/-- A visit of a flush loop touches the budget, the time of the last packet and the queue. -/
theorem flushAt_shape (now : UInt64) (i : ℕ) (socket : SocketResult) (p : Party) :
    ∃ budget lastSendMs net, (p.flushAt now i socket).2 = { p with
        session := { p.session with budget, lastSendMs }, net } ∧
      net.sockOpen = p.net.sockOpen ∧ net.pending ⊆ p.net.pending := by
  unfold flushAt
  cases p.net.pending[i]? with
  | none => exact ⟨_, _, _, rfl, rfl, List.Subset.refl _⟩
  | some pkt =>
    dsimp only
    split_ifs
    · exact ⟨_, _, _, rfl, rfl, List.Subset.refl _⟩
    · exact ⟨_, _, _, rfl, rfl, List.Subset.refl _⟩
    · cases socket with
      | sent =>
        refine ⟨_, _, _, rfl, noteSent_sockOpen now _ _, ?_⟩
        intro q hq
        have hmem := List.mem_of_mem_eraseIdx hq
        rwa [noteSent_pending] at hmem
      | wouldBlock => exact ⟨_, _, _, rfl, rfl, List.Subset.refl _⟩
      | failed => exact ⟨_, _, _, rfl, rfl, List.Subset.refl _⟩

theorem mem_of_flushAt {now : UInt64} {i : ℕ} {socket : SocketResult} {p : Party} {bytes : Bytes}
    (h : (p.flushAt now i socket).1 = some bytes) :
    ∃ pkt ∈ p.net.pending, pkt.ownerConnId = p.ownerConnId ∧ pkt.bytes = bytes := by
  unfold flushAt at h
  cases hpkt : p.net.pending[i]? with
  | none =>
    rw [hpkt] at h
    cases h
  | some pkt =>
    rw [hpkt] at h
    dsimp only at h
    split_ifs at h with howner
    cases socket with
    | sent =>
      refine ⟨pkt, List.mem_of_getElem? hpkt, not_not.mp howner, ?_⟩
      exact Option.some.inj h
    | wouldBlock => cases h
    | failed => cases h

end Party

end SecureCnet
