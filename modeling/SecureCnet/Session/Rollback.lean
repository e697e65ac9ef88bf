import SecureCnet.Delivery.Transmissions
import SecureCnet.Session.Admission
import SecureCnet.Session.Dispatch
import SecureCnet.Session.Transparency

/-!
# Failed sends are taken back

An inline reliable send first puts its message into the retransmission queue and then its
packet into the packet queue. If the second step fails, the message is withdrawn by a call
of `acknowledge`. The message was never sent, so the call takes no round-trip sample, and
it undoes the first step exactly, as long as the message it finds is the right one: two
pending messages have the same id only after the ids have gone once round.
-/

namespace SecureCnet

variable {C : Crypto}

namespace ReliableSession

/-- The session but for the next id. -/
def withNext (n : UInt64) (rs : ReliableSession) : ReliableSession := { rs with nextMessageId := n }

/-- No pending message has the id the next one gets. -/
def NextIsFree (rs : ReliableSession) : Prop := ∀ x ∈ rs.pending, x.messageId ≠ rs.nextMessageId

instance (rs : ReliableSession) : Decidable rs.NextIsFree :=
  inferInstanceAs (Decidable (∀ x ∈ rs.pending, _))

/-- Withdrawing the message that was just queued undoes everything but the use of an id. -/
theorem acknowledge_taking {rs : ReliableSession} (h : rs.NextIsFree) (t : UInt8) (d : Bytes)
    (prio : SendPriority) (life now now' : UInt64) :
    ((rs.taking (rs.message t d prio life now) d.length).acknowledge rs.nextMessageId now').2 =
      rs.withNext (rs.nextMessageId + 1) := by
  have hfind := find?_insertPending (m := rs.message t d prio life now) h
  have herase := eraseP_insertPending (m := rs.message t d prio life now) h
  have hbytes : rs.pendingBytes + UInt32.ofNat (8 + d.length) -
      UInt32.ofNat (be64 rs.nextMessageId ++ d).length = rs.pendingBytes := by
    simp
  unfold acknowledge taking
  dsimp only
  rw [show (rs.message t d prio life now).messageId = rs.nextMessageId from rfl] at hfind herase
  rw [hfind, herase]
  simp only [message, forget, hbytes, withNext]
  rfl

end ReliableSession

namespace Party

variable {p q : Party} {ch : Channel} {t : UInt8} {d : Bytes} {priority : SendPriority}
  {life now n : UInt64} {e : Failure}

theorem Queued.of_error {kind : PacketKind} {payload : Bytes}
    (h : Queued C p kind payload priority (.error e) q) :
    q.net = p.net ∧ ∀ ch, q.session.reliableFor ch = p.session.reliableFor ch := by
  refine ⟨?_, h.reliableFor_eq⟩
  cases h <;> rfl

/-- A reliable message that the retransmission queue takes and the packet queue does not. -/
theorem sendReliableMessage_withdrawn (hlen : d.length ≤ NetConfig.maxReliableMessageBytes)
    (hadm : (p.session.reliableFor ch).AdmitsAt [d.length] 0)
    (h : (p.sendReliableMessage C ch t d priority life now).1 = .error e) :
    (p.sendReliableMessage C ch t d priority life now).2.net = p.net ∧
      (p.sendReliableMessage C ch t d priority life now).2.session.reliableFor ch =
        (((p.session.reliableFor ch).taking ((p.session.reliableFor ch).message t d priority life
          now) d.length).acknowledge (p.session.reliableFor ch).nextMessageId now).2 := by
  unfold sendReliableMessage at h ⊢
  rw [if_neg (not_lt.mpr hlen), ReliableSession.enqueue_of_admits hlen hadm] at h ⊢
  dsimp only at h ⊢
  rw [← enqueued] at h ⊢
  have hq := queueMessagePacket_queued C ch t
    ((p.session.reliableFor ch).message t d priority life now).encodedPayload priority
    (p.enqueued ch ((p.session.reliableFor ch).taking
      ((p.session.reliableFor ch).message t d priority life now) d.length))
  revert h hq
  generalize (p.enqueued ch _).queueMessagePacket C ch t _ priority = r
  intro h hq
  obtain ⟨rc, q⟩ := r
  cases rc with
  | ok u => cases h
  | error e' =>
    obtain ⟨hnet, hrel⟩ := hq.of_error
    dsimp only
    constructor
    · exact hnet
    · rw [mapSession_session, Session.reliableFor_setReliable_self, hrel, enqueued_reliableFor]
      rfl

/-- A reliable message that the retransmission queue refuses. -/
theorem sendReliableMessage_refused (hadm : ¬(p.session.reliableFor ch).AdmitsAt [d.length] 0) :
    (p.sendReliableMessage C ch t d priority life now).2.net = p.net ∧
      ∃ n, (p.sendReliableMessage C ch t d priority life now).2.session.reliableFor ch =
        (p.session.reliableFor ch).withNext n := by
  unfold sendReliableMessage
  split_ifs with hlen
  · exact ⟨rfl, _, rfl⟩
  rcases (p.session.reliableFor ch).enqueue_eq t d priority life now with
    ⟨msg, he, -⟩ | ⟨msg, he, -⟩ | ⟨-, hid, -, hroom, hbytes⟩
  · rw [he]
    exact ⟨rfl, _, Session.reliableFor_setReliable_self ch _ _⟩
  · rw [he]
    exact ⟨rfl, _, Session.reliableFor_setReliable_self ch _ _⟩
  · exact absurd (ReliableSession.admitsAt_zero.mpr ⟨hroom, hbytes, hid⟩) hadm

/-- A reliable message that is not sent leaves both queues as they were. -/
theorem sendReliableMessage_rolls_back (hfree : (p.session.reliableFor ch).NextIsFree)
    (h : (p.sendReliableMessage C ch t d priority life now).1 = .error e) :
    (p.sendReliableMessage C ch t d priority life now).2.net = p.net ∧
      ∃ n, (p.sendReliableMessage C ch t d priority life now).2.session.reliableFor ch =
        (p.session.reliableFor ch).withNext n := by
  by_cases hlen : d.length ≤ NetConfig.maxReliableMessageBytes
  swap
  · unfold sendReliableMessage
    rw [if_pos (not_le.mp hlen)]
    exact ⟨rfl, _, rfl⟩
  by_cases hadm : (p.session.reliableFor ch).AdmitsAt [d.length] 0
  · obtain ⟨hnet, hrel⟩ := sendReliableMessage_withdrawn hlen hadm h
    exact ⟨hnet, _, hrel.trans (ReliableSession.acknowledge_taking hfree t d priority life now now)⟩
  · exact sendReliableMessage_refused hadm

variable {o : SendOptions} {payload : Bytes}

/-- An inline reliable send that fails leaves its retransmission queue with all its counters
and estimates, and the packet queue, as they were. It may have used up an id. -/
theorem inline_send_rolls_back (hch : o.channel.isReliable = true)
    (hlen : payload.length ≤ o.channel.maxInlinePayloadSize)
    (hfree : (p.session.reliableFor o.channel).NextIsFree)
    (h : (p.send C o t payload now).1 = .error e) :
    (p.send C o t payload now).2.net = p.net ∧
      ∃ n, (p.send C o t payload now).2.session.reliableFor o.channel =
        (p.session.reliableFor o.channel).withNext n := by
  revert h
  unfold send
  split_ifs with hest happ hlong hlarge hrel hord hseq
  · exact fun _ => ⟨rfl, _, rfl⟩
  · exact fun _ => ⟨rfl, _, rfl⟩
  · exact fun _ => ⟨rfl, _, rfl⟩
  · exact absurd hlarge (not_lt.mpr hlen)
  · rw [hrel] at hfree ⊢
    exact sendReliableMessage_rolls_back hfree
  · rw [hord] at hfree ⊢
    dsimp only
    split
    · exact fun _ => ⟨rfl, _, rfl⟩
    · -- The sequence number was drawn; neither queue sees it.
      have hfree' : ((p.mapSession Session.drawOrdered).session.reliableFor
          .reliableOrdered).NextIsFree := hfree
      exact sendReliableMessage_rolls_back hfree'
  · rw [hseq] at hch
    cases hch
  · cases hc : o.channel <;> simp_all [Channel.isReliable]

/-- An established client with room for one packet. -/
def crowdedClient : Party := { establishedClient with side := .client { maxPendingPackets := 1 } }

def firstSent : Party := (crowdedClient.send .standIn { channel := .reliable } 7 [1] 5).2

def trySecond (p : Party) : Party := (p.send .standIn { channel := .reliable } 8 [2] 6).2

/-- The second message is withdrawn, and the first one waits as before. -/
theorem second_rolls_back :
    (trySecond firstSent).net = firstSent.net ∧
      (trySecond firstSent).session.reliable.pending = firstSent.session.reliable.pending := by
  have herr : (firstSent.send .standIn { channel := .reliable } 8 [2] 6).1 =
      fail .queueFull "pending packet queue full" := by decide +kernel
  obtain ⟨hnet, n, hrel⟩ := inline_send_rolls_back (by decide) (by decide) (by decide +kernel) herr
  have hpending := congrArg ReliableSession.pending hrel
  exact ⟨hnet, hpending⟩

/-- The state after some tries: only the next id has moved. -/
structure Stuck (n : UInt64) (p : Party) : Prop where
  side : p.side = firstSent.side
  state : p.session.state = .established
  net : p.net = firstSent.net
  reliable : p.session.reliable = firstSent.session.reliable.withNext n

theorem Stuck.send_eq (h : Stuck n p) : p.send .standIn { channel := .reliable } 8 [2] 6 =
      p.sendReliableMessage .standIn .reliable 8 [2] .normal 0 6 := by
  unfold send
  rw [if_neg (not_not.mpr h.state)]
  rfl

theorem Stuck.error (h : Stuck n p) :
    ∃ e, (p.sendReliableMessage .standIn .reliable 8 [2] .normal 0 6).1 = .error e := by
  have hreliable : Channel.reliable.isReliable = true := rfl
  have hoff := sendReliableMessage_offered Crypto.standIn_idealAead hreliable
    (d := [2]) (by decide) 8 { channel := .reliable } 6 p
  have hfull : ¬p.net.pending.length + 0 < p.side.maxPendingPackets.toNat := by
    rw [h.net, h.side]
    decide +kernel
  revert hoff
  rcases p.sendReliableMessage .standIn .reliable 8 [2] .normal 0 6 with ⟨rc, q⟩
  intro hoff
  cases hoff with
  | took q htakes => exact absurd htakes.2.1 hfull
  | refused e => exact ⟨e, rfl⟩

theorem Stuck.admits (h : Stuck n p) (hn : n ≠ 0) :
    (p.session.reliableFor .reliable).AdmitsAt [[(2 : UInt8)].length] 0 := by
  have hrs : p.session.reliableFor .reliable = firstSent.session.reliable.withNext n := h.reliable
  rw [hrs, ReliableSession.admitsAt_zero]
  refine ⟨?_, ?_, hn⟩
  · change firstSent.session.reliable.pending.length <
      firstSent.session.reliable.cfg.maxPendingMessages.toNat
    decide +kernel
  · change firstSent.session.reliable.pendingBytes + UInt32.ofNat (8 + 1) ≤
      firstSent.session.reliable.cfg.maxPendingBytes
    decide +kernel

/-- Another try uses up another id. -/
theorem Stuck.next (h : Stuck n p) (hn : n ≠ 1) : Stuck (n + 1) (trySecond p) := by
  obtain ⟨sent, hsend, -⟩ := send_spec (C := .standIn) { channel := .reliable } 8 [2] 6 p
  obtain ⟨e, he⟩ := h.error
  have hrs : p.session.reliableFor .reliable = firstSent.session.reliable.withNext n := h.reliable
  have hids : firstSent.session.reliable.pending.map (fun m => m.messageId) = [1] := by
    decide +kernel
  have hresult : (trySecond p).net = p.net ∧
      (trySecond p).session.reliable = firstSent.session.reliable.withNext (n + 1) := by
    rw [trySecond, h.send_eq]
    by_cases hzero : n = 0
    · -- The id 0 is refused, and used up.
      subst hzero
      have henq : (firstSent.session.reliable.withNext 0).enqueue 8 [2] .normal 0 6 =
          (fail .invalidArg "reliable message id must be non-zero",
            firstSent.session.reliable.withNext 1) := by decide +kernel
      unfold sendReliableMessage
      rw [if_neg (by decide), hrs, henq]
      exact ⟨rfl, rfl⟩
    · obtain ⟨hnet, hrel⟩ := sendReliableMessage_withdrawn (by decide) (h.admits hzero) he
      refine ⟨hnet, ?_⟩
      have hfree : (p.session.reliableFor .reliable).NextIsFree := by
        rw [hrs]
        intro x hx heq
        have hmem : x.messageId ∈ firstSent.session.reliable.pending.map (fun m => m.messageId) :=
          List.mem_map_of_mem hx
        rw [hids, List.mem_singleton] at hmem
        exact hn (heq.symm.trans hmem)
      have hback := hrel.trans (ReliableSession.acknowledge_taking hfree 8 [2] .normal 0 6 6)
      rw [hrs] at hback
      exact hback
  exact ⟨hsend.side_eq.trans h.side, hsend.state_eq.trans h.state, hresult.1.trans h.net,
    hresult.2⟩

def triedBy : ℕ → Party
  | 0 => firstSent
  | n + 1 => trySecond (triedBy n)

theorem stuck_triedBy {n : ℕ} (hn : n < 2 ^ 64) : Stuck (UInt64.ofNat (2 + n)) (triedBy n) := by
  induction n with
  | zero => exact ⟨rfl, by decide +kernel, rfl, by decide +kernel⟩
  | succ n ih =>
    have hne : UInt64.ofNat (2 + n) ≠ 1 := by
      intro h
      have hval : (2 + n) % 2 ^ 64 = 1 := by simpa using congrArg UInt64.toNat h
      omega
    rw [triedBy, ← Nat.add_assoc, UInt64.ofNat_add]
    exact (ih (by omega)).next hne

/-- Where the id of the second message is that of the first, the withdrawal takes the first. -/
theorem Stuck.takes_other (h : Stuck 1 p) :
    p.session.state = .established ∧
      (∃ e, (p.send .standIn { channel := .reliable } 8 [2] 6).1 = .error e) ∧
      p.session.reliable.pending.map (fun m => m.userType) = [7] ∧
      (p.send .standIn { channel := .reliable } 8 [2] 6).2.session.reliable.pending.map
        (fun m => m.userType) = [8] := by
  obtain ⟨e, he⟩ := h.error
  have hrs : p.session.reliableFor .reliable = firstSent.session.reliable.withNext 1 := h.reliable
  have hrel := (sendReliableMessage_withdrawn (by decide) (h.admits (by decide)) he).2
  rw [hrs] at hrel
  rw [h.send_eq]
  refine ⟨h.state, ⟨e, he⟩, ?_, ?_⟩
  · rw [h.reliable]
    decide +kernel
  · refine (congrArg (fun rs => rs.pending.map fun m => m.userType) hrel).trans ?_
    decide +kernel

/-- Once the ids have gone round, the withdrawal finds the first message in place of the second:
the one that was sent is gone and the one that was refused stays. -/
theorem rollback_takes_other :
    (triedBy (2 ^ 64 - 1)).session.state = .established ∧
      (∃ e, ((triedBy (2 ^ 64 - 1)).send .standIn { channel := .reliable } 8 [2] 6).1 =
        .error e) ∧
      (triedBy (2 ^ 64 - 1)).session.reliable.pending.map (fun m => m.userType) = [7] ∧
      ((triedBy (2 ^ 64 - 1)).send .standIn { channel := .reliable } 8 [2]
        6).2.session.reliable.pending.map (fun m => m.userType) = [8] := by
  have hstuck := stuck_triedBy (n := 2 ^ 64 - 1) (by decide)
  generalize triedBy (2 ^ 64 - 1) = p at hstuck ⊢
  exact Stuck.takes_other hstuck

end Party

end SecureCnet
