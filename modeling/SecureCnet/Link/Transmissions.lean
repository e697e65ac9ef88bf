import SecureCnet.Link.Delivery
import SecureCnet.Session.Transmissions

/-!
# Transmissions over whole runs

`Logs` follows one end of a session through any steps, against any datagrams, and
keeps the list of its transmissions. A step may have to meet a condition on the state
before it. The round-trip samples and the number of messages in flight are what the
documentation says as long as sends find room in flight.
-/

namespace SecureCnet

/-- The transmissions on one channel, as ids with times. -/
def onChannel (ch : Channel) (sent : List Transmission) : List (UInt64 × UInt64) :=
  (sent.filter fun t => t.channel = ch).map fun t => (t.messageId, t.nowMs)

theorem onChannel_append (ch : Channel) (sent sent' : List Transmission) :
    onChannel ch (sent ++ sent') = onChannel ch sent ++ onChannel ch sent' := by
  simp [onChannel]

theorem onChannel_self (ch : Channel) (ids : List UInt64) (now : UInt64) :
    onChannel ch (ids.map fun id => ⟨ch, id, now⟩) = ids.map fun id => (id, now) := by
  induction ids with
  | nil => rfl
  | cons id ids ih => simpa [onChannel] using ih

variable {ch : Channel}

theorem onChannel_of_ne {ch' : Channel} (h : ch ≠ ch') (ids : List UInt64) (now : UInt64) :
    onChannel ch' (ids.map fun id => ⟨ch, id, now⟩) = [] := by
  simp [onChannel, h]

theorem eq_singleton_of_onChannel {id t : UInt64} {sent : List Transmission}
    (h : (onChannel ch sent).filter (fun s => s.1 = id) = [(id, t)]) :
    sent.filter (fun s => s.channel = ch ∧ s.messageId = id) = [⟨ch, id, t⟩] := by
  unfold onChannel at h
  rw [List.filter_map, List.filter_filter, List.map_eq_singleton_iff] at h
  obtain ⟨s, hl, heq⟩ := h
  have hmem := List.mem_singleton_self s
  rw [← hl, List.mem_filter] at hmem
  have hs : s = ⟨ch, id, t⟩ := by
    obtain ⟨ch', id', t'⟩ := s
    simp_all
  rw [← hs, ← hl]
  refine List.filter_congr fun s _ => ?_
  simp [Bool.and_comm]

theorem eq_of_reliableOrdered_iff {ch' : Channel} (hch : ch.isReliable = true)
    (hch' : ch'.isReliable = true) (h : ch' = .reliableOrdered ↔ ch = .reliableOrdered) :
    ch' = ch := by
  cases ch <;> cases ch' <;> simp_all [Channel.isReliable]

/-- The transmissions of a step. -/
def Op.transmissions (C : Crypto) (op : Op) (p : Party) : List Transmission :=
  match op with
  | .send options type payload now => p.transmitted C options type payload now
  | .pumpReliable now => p.pumped C now
  | _ => []

namespace End

variable (C : Crypto)

/-- The steps of an end, each under a condition on the state before it, with the transmissions
so far. -/
inductive Logs (cond : Op → Party → Prop) (e : End) : List Transmission → End → Prop
  | start : Logs cond e [] e
  | step {sent : List Transmission} {e' : End} (h : Logs cond e sent e') (wire : List Bytes)
      (op : Op) (hop : cond op e'.party) :
      Logs cond e (sent ++ op.transmissions C e'.party) (e'.step C wire op)

/-- A reliable send of an established session finds an id and a place in flight for each frame. -/
def RoomToSend (o : SendOptions) (t : UInt8) (payload : Bytes) (p : Party) : Prop :=
  p.session.state = .established → o.channel.isReliable = true →
    (p.session.reliableFor o.channel).Roomy (sendFrames o.channel t payload p.session).length

variable {C} {cond : Op → Party → Prop} {e e' : End} {sent : List Transmission} {p : Party} {k : ℕ}

/-- All steps but sends and retransmission passes only listen. -/
theorem step_cases (wire : List Bytes) (op : Op) (e : End) :
    (∃ o t payload now, op = .send o t payload now) ∨ (∃ now, op = .pumpReliable now) ∨
      (∀ p, op.transmissions C p = []) ∧ e.party.Attended (e.step C wire op).party := by
  cases op with
  | send o t payload now => exact Or.inl ⟨o, t, payload, now, rfl⟩
  | pumpReliable now => exact Or.inr (Or.inl ⟨now, rfl⟩)
  | sendPayload data => exact Or.inr (Or.inr ⟨fun _ => rfl, Party.sendPayload_attended data _⟩)
  | flush i now socket =>
    exact Or.inr (Or.inr ⟨fun _ => rfl, Party.flushAt_attended now i socket _⟩)
  | receive i now =>
    refine Or.inr (Or.inr ⟨fun _ => rfl, ?_⟩)
    rw [step_receive]
    cases wire[i]? with
    | none => exact .refl _
    | some datagram => exact Party.receive_attended now datagram _
  | runHousekeeping now => exact Or.inr (Or.inr ⟨fun _ => rfl, Party.runHousekeeping_attended now _⟩)
  | close now reason => exact Or.inr (Or.inr ⟨fun _ => rfl, Party.close_attended now reason _⟩)
  | violation now reason =>
    exact Or.inr (Or.inr ⟨fun _ => rfl, Party.violation_attended now reason _⟩)
  | others net otherMemory =>
    refine Or.inr (Or.inr ⟨fun _ => rfl, ?_⟩)
    rw [step_others]
    split_ifs
    · exact Party.attended_of_eq le_rfl rfl rfl
    · exact .refl _

theorem transmissions_of_not_established (h : p.session.state ≠ .established) (o : SendOptions)
    (t : UInt8) (payload : Bytes) (now : UInt64) :
    p.transmitted C o t payload now = [] ∧ (p.send C o t payload now).2 = p ∧
      p.pumped C now = [] ∧ (p.pumpReliable C now).2 = p := by
  refine ⟨?_, ?_, if_pos h, ?_⟩
  · rw [Party.transmitted, Party.send_of_not_established h, Nat.sub_self, List.take_zero]
    rfl
  · rw [Party.send_of_not_established h]
  · rw [Party.pumpReliable, if_pos h]

section Rule

variable {K : List (UInt64 × UInt64) → ReliableSession → Prop}

/-- What posting keeps is kept by a send that finds room. -/
theorem send_keeps (hsound : ∀ sent rs, K sent rs → rs.Sound)
    (hpost : ∀ t d prio life now queued sent rs n, K sent rs → rs.Roomy (n + 1) →
      K (sent ++ (rs.posted t d prio life now queued).map fun id => (id, now))
        (rs.post t d prio life now queued))
    {o : SendOptions} {t : UInt8} {payload : Bytes} {p : Party} (now : UInt64)
    (hest : p.session.state = .established) (hroom : RoomToSend o t payload p)
    (h : ∀ ch, ch.isReliable = true → K (onChannel ch sent) (p.session.reliableFor ch)) :
    ∀ ch, ch.isReliable = true → K (onChannel ch (sent ++ p.transmitted C o t payload now))
      ((p.send C o t payload now).2.session.reliableFor ch) := by
  intro ch hch
  cases hrel : o.channel.isReliable with
  | false =>
    rw [Party.transmitted_unreliable hrel, Party.send_unreliable hrel, List.append_nil]
    exact h ch hch
  | true =>
    obtain ⟨ids, rs, n, hrep, ⟨hK, -⟩, htrans⟩ := Party.send_induction (C := C)
      (J := fun sizes ids rs => K (onChannel o.channel sent ++ ids.map fun id => (id, now)) rs ∧
        rs.Roomy sizes.length) hrel t payload now p
      (fun t d sizes ids rs queued hJ => by
        refine ⟨?_, hJ.2.post (hsound _ _ hJ.1).ordered t d _ _ now queued⟩
        have := hpost t d o.priority o.lifetimeMs now queued _ _ _ hJ.1 hJ.2
        rwa [List.append_assoc, ← List.map_append] at this)
      (fun sizes ids rs hJ => ⟨hJ.1, hJ.2.mono (Nat.zero_le _)⟩)
      ⟨by simpa using h o.channel hrel, by simpa using hroom hest hrel⟩
    rw [htrans, onChannel_append]
    by_cases hsame : ch = .reliableOrdered ↔ o.channel = .reliableOrdered
    · obtain rfl := eq_of_reliableOrdered_iff hrel hch hsame
      rw [onChannel_self, hrep.own]
      exact hK
    · have hne : o.channel ≠ ch := fun heq => hsame (by rw [heq])
      rw [onChannel_of_ne hne, List.append_nil, hrep.other ch hsame]
      exact h ch hch

/-- What listening, posting and retransmission passes keep holds along every run, up to the end
of the session. -/
theorem Logs.induction (hsound : ∀ sent rs, K sent rs → rs.Sound)
    (hears : ∀ sent rs rs', K sent rs → rs.Hears rs' → K sent rs')
    (hpost : ∀ t d prio life now queued sent rs n, K sent rs → rs.Roomy (n + 1) →
      K (sent ++ (rs.posted t d prio life now queued).map fun id => (id, now))
        (rs.post t d prio life now queued))
    (hpump : ∀ now p sent, cond (.pumpReliable now) p → p.session.state = .established →
      (∀ ch, ch.isReliable = true → K (onChannel ch sent) (p.session.reliableFor ch)) →
      ∀ ch, ch.isReliable = true → K (onChannel ch (sent ++ p.pumped C now))
        ((p.pumpReliable C now).2.session.reliableFor ch))
    (hroom : ∀ o t payload now p, cond (.send o t payload now) p → RoomToSend o t payload p)
    (hstart : ∀ ch, ch.isReliable = true → K [] (e.party.session.reliableFor ch))
    (h : e.Logs C cond sent e') :
    e'.party.Ended ∨
      ∀ ch, ch.isReliable = true → K (onChannel ch sent) (e'.party.session.reliableFor ch) := by
  induction h with
  | start => exact Or.inr hstart
  | @step sent e' _ wire op hop ih =>
    rcases step_cases (C := C) wire op e' with ⟨o, t, payload, now, rfl⟩ | ⟨now, rfl⟩ | ⟨hnone, hatt⟩
    · by_cases hest : e'.party.session.state = .established
      · refine ih.elim (fun hend => ?_) fun hK => Or.inr ?_
        · rw [hend.1] at hest
          cases hest
        · exact send_keeps hsound hpost now hest (hroom o t payload now _ hop) hK
      · obtain ⟨h1, h2, -⟩ := transmissions_of_not_established (C := C) hest o t payload now
        change (e'.party.send C o t payload now).2.Ended ∨ ∀ ch, ch.isReliable = true →
          K (onChannel ch (sent ++ e'.party.transmitted C o t payload now))
            ((e'.party.send C o t payload now).2.session.reliableFor ch)
        rw [h1, h2, List.append_nil]
        exact ih
    · by_cases hest : e'.party.session.state = .established
      · refine ih.elim (fun hend => ?_) fun hK => Or.inr ?_
        · rw [hend.1] at hest
          cases hest
        · exact hpump now e'.party sent hop hest hK
      · obtain ⟨-, -, h1, h2⟩ := transmissions_of_not_established (C := C) hest {} 0 [] now
        change (e'.party.pumpReliable C now).2.Ended ∨ ∀ ch, ch.isReliable = true →
          K (onChannel ch (sent ++ e'.party.pumped C now))
            ((e'.party.pumpReliable C now).2.session.reliableFor ch)
        rw [h1, h2, List.append_nil]
        exact ih
    · rw [hnone, List.append_nil]
      rcases ih with hend | hK
      · exact Or.inl (hatt.ended hend)
      · exact hatt.hears.imp id fun hh ch hch => hears _ _ _ (hK ch hch) (hh ch)

end Rule

/-! ### Round-trip samples -/

/-- A send finds room in flight, and a pass no message whose transmission count is used up. -/
def Uncrowded (op : Op) (p : Party) : Prop :=
  match op with
  | .send o t payload _ => RoomToSend o t payload p
  | .pumpReliable _ => ∀ ch, ∀ m ∈ (p.session.reliableFor ch).pending, m.sendCount.toNat + 1 < 2 ^ 32
  | _ => True

/-- The transmissions of a channel are what its reliable session counts. -/
def Tracks (sent : List (UInt64 × UInt64)) (rs : ReliableSession) : Prop :=
  rs.Sound ∧ rs.Recorded sent

theorem Tracks.expireOld {rs : ReliableSession} {sent : List (UInt64 × UInt64)} (h : Tracks sent rs)
    (now : UInt64) : Tracks sent (rs.expireOld now).2 :=
  ⟨⟨h.1.counted.expireOld now, h.1.ordered.expireOld now⟩,
    h.2.subset List.filter_sublist.subset
      (ReliableSession.sameNumbers_expireOld now rs).nextMessageId⟩

/-- A retransmission pass lists what it transmits. -/
theorem tracks_pumpReliable (now : UInt64)
    (hcount : ∀ ch, ∀ m ∈ (p.session.reliableFor ch).pending, m.sendCount.toNat + 1 < 2 ^ 32)
    (h : ∀ ch, ch.isReliable = true → Tracks (onChannel ch sent) (p.session.reliableFor ch)) :
    ∀ ch, ch.isReliable = true → Tracks (onChannel ch (sent ++ p.pumped C now))
      ((p.pumpReliable C now).2.session.reliableFor ch) := by
  -- Along the pass: what is on record, and the counts of the channels still to come.
  suffices hJ : ([] : List Channel).Nodup ∧ (∀ ch ∈ ([] : List Channel), ch.isReliable = true ∧
      ∀ m ∈ ((p.pumpReliable C now).2.session.reliableFor ch).pending,
        m.sendCount.toNat + 1 < 2 ^ 32) ∧
      ∀ ch, ch.isReliable = true → Tracks (onChannel ch (sent ++ p.pumped C now))
        ((p.pumpReliable C now).2.session.reliableFor ch) from hJ.2.2
  refine Party.pumpReliable_induction (C := C) (J := fun chs sent' q => chs.Nodup ∧
    (∀ ch ∈ chs, ch.isReliable = true ∧
      ∀ m ∈ (q.session.reliableFor ch).pending, m.sendCount.toNat + 1 < 2 ^ 32) ∧
    ∀ ch, ch.isReliable = true → Tracks (onChannel ch (sent ++ sent'))
      (q.session.reliableFor ch)) now ?_ ?_ ?_ ?_ ?_
  · refine ⟨by decide, fun ch hch => ⟨by fin_cases hch <;> rfl, fun m hm => ?_⟩, fun ch hch => ?_⟩
    · rw [Party.mapSession_session, Party.reliableFor_expirePending] at hm
      exact hcount ch m (List.filter_sublist.subset hm)
    · rw [Party.mapSession_session, Party.reliableFor_expirePending, List.append_nil]
      exact (h ch hch).expireOld now
  · intro ch chs sent' q hch hJ
    obtain ⟨hnodup, hcounts, htracks⟩ := hJ
    rw [List.nodup_cons] at hnodup
    rw [List.forall_mem_cons] at hcounts
    obtain ⟨n, hrep⟩ := Party.resendChannel_replaces (C := C) ch now q
    obtain ⟨hsound, hrec⟩ := htracks ch hch
    obtain ⟨ids, hpass, hrec'⟩ := hrec.resendDue
      (fun id => (⟨ch, id, now⟩ : Transmission)) now (Party.resendOne C ch) hsound.ordered q
      hcounts.1.2
    have hresent : q.resent C ch now = ids.map fun id => ⟨ch, id, now⟩ := by
      rw [Party.resent, hpass]
    have hother : ∀ ch', ch'.isReliable = true → ch' ≠ ch →
        (q.resendChannel C ch now).2.session.reliableFor ch' = q.session.reliableFor ch' :=
      fun ch' hch' hne => hrep.other ch' fun hsame => hne (eq_of_reliableOrdered_iff hch hch' hsame)
    refine ⟨hnodup.2, fun ch' hch' => ?_, fun ch' hch' => ?_⟩
    · have hrel := (hcounts.2 ch' hch').1
      rw [hother ch' hrel (fun heq => hnodup.1 (heq ▸ hch'))]
      exact hcounts.2 ch' hch'
    · rw [← List.append_assoc, onChannel_append, hresent]
      by_cases hsame : ch' = ch
      · subst hsame
        rw [onChannel_self, hrep.own]
        exact ⟨⟨hsound.counted.resendDue now _ q, hsound.ordered.resendDue hsound.counted now _ q⟩,
          hrec'⟩
      · rw [onChannel_of_ne (Ne.symm hsame), List.append_nil, hother ch' hch' hsame]
        exact htracks ch' hch'
  · exact fun sent' q f hJ => hJ
  · exact fun chs sent' q hJ => ⟨List.nodup_nil, by simp, hJ.2.2⟩
  · exact ⟨List.nodup_nil, by simp, by simpa using h⟩

theorem Logs.tracks (hstart : ∀ ch, ∃ cfg, e.party.session.reliableFor ch =
      ReliableSession.configure cfg {})
    (h : e.Logs C Uncrowded sent e') :
    e'.party.Ended ∨
      ∀ ch, ch.isReliable = true → Tracks (onChannel ch sent) (e'.party.session.reliableFor ch) := by
  refine h.induction (fun _ _ hK => hK.1) ?_ ?_ ?_ (fun o t payload now p hop => hop) ?_
  · exact fun sent rs rs' hK hears =>
      ⟨hears.sound hK.1, hK.2.subset hears.pending_sublist.subset hears.nextMessageId⟩
  · intro t d prio life now queued sent rs n hK hroom
    have hids : rs.nextMessageId.toNat + 1 < 2 ^ 64 := by
      have := hroom.ids
      omega
    exact ⟨hK.1.post hids t d prio life now queued,
      hK.2.post hK.1.ordered hids t d prio life now queued hroom.lt⟩
  · exact fun now p sent hop _ hK => tracks_pumpReliable now hop hK
  · intro ch _
    obtain ⟨cfg, hcfg⟩ := hstart ch
    rw [hcfg]
    exact ⟨⟨ReliableSession.counted_configure cfg, ReliableSession.ordered_of_nil rfl⟩,
      by simp, fun m hm => absurd hm List.not_mem_nil, fun m hm => absurd hm List.not_mem_nil,
      fun m hm => absurd hm List.not_mem_nil⟩

/-- A valid round-trip sample is about a message that was transmitted once, and measures the time
from that transmission to the acknowledgement; a send that takes its message back samples
nothing. -/
theorem rtt_samples_of_one_transmission (hstart : ∀ ch, ∃ cfg, e.party.session.reliableFor ch =
      ReliableSession.configure cfg {})
    (h : e.Logs C Uncrowded sent e') :
    (∀ (now : UInt64) (datagram : Bytes), ∀ report ∈ e'.party.datagramAcks C now datagram,
      report.event.rttSampleValid = true →
      ∃ t, sent.filter (fun s => s.channel = report.channel ∧ s.messageId = report.messageId) =
          [⟨report.channel, report.messageId, t⟩] ∧
        t ≤ now ∧ report.event.rttSampleMs = now - t) ∧
    ∀ ch, ch.isReliable = true → ∀ t d prio life now m rs,
      (e'.party.session.reliableFor ch).enqueue t d prio life now = (.ok m, rs) →
      (rs.acknowledge m.messageId now).1.rttSampleValid = false := by
  have htracked := h.tracks hstart
  constructor
  · intro now datagram report hreport hvalid
    obtain ⟨hch, rs, hears, hevent⟩ := Party.datagramAcks_reports hreport hvalid
    rw [hevent] at hvalid ⊢
    rcases htracked with hend | htracks
    · have hnil := hears.pending_sublist
      rw [hend.2, List.sublist_nil] at hnil
      rw [ReliableSession.acknowledge, hnil] at hvalid
      cases hvalid
    · have hrec := (htracks _ hch).2.subset hears.pending_sublist.subset hears.nextMessageId
      obtain ⟨t, hone, hle, hms⟩ := hrec.sample hvalid
      exact ⟨t, eq_singleton_of_onChannel hone, hle, hms⟩
  · intro ch hch t d prio life now m rs henq
    have hordered : (e'.party.session.reliableFor ch).Ordered := htracked.elim
      (fun hend => ReliableSession.ordered_of_nil (hend.2 ch)) fun htracks =>
        (htracks ch hch).1.ordered
    exact ReliableSession.withdrawn_not_sampled hordered henq now

/-- The acknowledgement of a reliable message, as the peer of `establishedClient` sends it. -/
def ackDatagram (seq messageId : UInt64) : Bytes :=
  (buildPacket .standIn .message true (MsgView.encode ⟨.control, ControlType.reliableAck.code,
    encodeAck .reliable messageId⟩) 1 seq Party.establishedServer.session.keys.tx).toOption.getD []

theorem rtt_samples_of_one_transmission_acked :
    (Link.established.left.step .standIn [] (.send { channel := .reliable } 7 [1] 5)).party.datagramAcks
        .standIn 25 (ackDatagram 1 1) =
      [⟨.reliable, 1, { removed := true, rttSampleValid := true, rttSampleMs := 20 }⟩] ∧
    ∃ t, (Op.transmissions .standIn (.send { channel := .reliable } 7 [1] 5)
        Link.established.left.party).filter (fun s => s.channel = .reliable ∧ s.messageId = 1) =
      [⟨.reliable, 1, t⟩] ∧ t ≤ 25 ∧ (20 : UInt64) = 25 - t := by
  have hack : (Link.established.left.step .standIn [] (.send { channel := .reliable } 7 [1] 5)
      ).party.datagramAcks .standIn 25 (ackDatagram 1 1) =
        [⟨.reliable, 1, { removed := true, rttSampleValid := true, rttSampleMs := 20 }⟩] := by
    decide +kernel
  refine ⟨hack, ?_⟩
  have hlogs : Link.established.left.Logs .standIn Uncrowded _ _ :=
    .step .start [] (.send { channel := .reliable } 7 [1] 5)
      (fun _ _ => ⟨by decide +kernel, by decide +kernel⟩)
  exact (rtt_samples_of_one_transmission
    (fun ch => ⟨{}, by cases ch <;> rfl⟩) hlogs).1 25 (ackDatagram 1 1) _
      (by rw [hack]; exact List.mem_singleton_self _) rfl

/-- A client that may have one message in flight. -/
def single : End where
  party := { Link.established.left.party with
    side := .client { reliability := { maxInflightMessages := 1 } }
    session := { Link.established.left.party.session with
      reliable := ReliableSession.configure { maxInflightMessages := 1 } {}
      orderedReliable := ReliableSession.configure { maxInflightMessages := 1 } {} } }

/-- The second message is transmitted although it has no place in flight, and again after the
first was acknowledged. Its acknowledgement gives a sample all the same. -/
theorem rtt_sample_of_two_transmissions :
    validateClientConfig { reliability := { maxInflightMessages := 1 } } = .ok () ∧
    ∃ sent e', single.Logs .standIn (fun _ _ => True) sent e' ∧
      sent = [⟨.reliable, 1, 10⟩, ⟨.reliable, 2, 10⟩, ⟨.reliable, 2, 30⟩] ∧
      e'.party.datagramAcks .standIn 40 (ackDatagram 2 2) =
        [⟨.reliable, 2, { removed := true, rttSampleValid := true, rttSampleMs := 10 }⟩] := by
  refine ⟨by decide, _, _, .step (.step (.step (.step .start []
    (.send { channel := .reliable } 7 [1] 10) trivial) []
    (.send { channel := .reliable } 7 [2] 10) trivial) [ackDatagram 1 1]
    (.receive 0 20) trivial) [] (.pumpReliable 30) trivial, ?_, ?_⟩
  · decide +kernel
  · decide +kernel

/-! ### Messages in flight -/

/-- A send finds room in flight, and a pass finds room in the packet queue for everything that is
pending and can encrypt it. -/
def Unhindered (op : Op) (p : Party) : Prop :=
  match op with
  | .send o t payload _ => RoomToSend o t payload p
  | .pumpReliable _ => p.session.state = .established → p.canSeal = true ∧
      p.net.pending.length + (p.session.reliable.pending.length +
        p.session.orderedReliable.pending.length) ≤ p.side.maxPendingPackets.toNat
  | _ => True

/-- The ids of a channel that have been transmitted and are still pending. -/
def outstanding (ch : Channel) (sent : List Transmission) (p : Party) : List UInt64 :=
  ((p.session.reliableFor ch).pending.map fun m => m.messageId).dedup.filter fun id =>
    sent.any fun t => t.channel = ch ∧ t.messageId = id

theorem length_outstanding_le (ch : Channel) (sent : List Transmission) (p : Party) :
    (outstanding ch sent p).length ≤ (p.session.reliableFor ch).pending.length := by
  refine (List.length_filter_le _ _).trans ?_
  rw [← List.length_map (f := fun m : PendingReliableMessage => m.messageId)]
  exact (List.dedup_sublist _).length_le

/-- Everything pending is in flight. -/
structure Aloft (cfg : ReliabilityConfig) (rs : ReliableSession) : Prop where
  sound : rs.Sound
  aloft : rs.Aloft
  short : rs.Short
  cfg_eq : rs.cfg = cfg

variable {cfg : ReliabilityConfig} {rs : ReliableSession}

theorem Aloft.expireOld (h : Aloft cfg rs) (now : UInt64) : Aloft cfg (rs.expireOld now).2 :=
  ⟨⟨h.sound.counted.expireOld now, h.sound.ordered.expireOld now⟩,
    h.aloft.subset List.filter_sublist.subset,
    h.short.subset (ReliableSession.contents_expireOld now rs).subset,
    (ReliableSession.sameNumbers_expireOld now rs).cfg.trans h.cfg_eq⟩

/-- The packet queue takes so many frames. -/
def Vacant (k : ℕ) (p : Party) : Prop :=
  p.canSeal = true ∧ p.net.pending.length + k ≤ p.side.maxPendingPackets.toNat

theorem Vacant.mono {j : ℕ} (h : Vacant k p) (hjk : j ≤ k) : Vacant j p :=
  ⟨h.1, (Nat.add_le_add_left hjk _).trans h.2⟩

theorem Vacant.resendOne (hC : C.IdealAead) {ch : Channel} (hch : ch.isReliable = true)
    {m : PendingReliableMessage} (hm : m.encodedPayload.length ≤ NetConfig.maxMessageBytes)
    (h : Vacant (k + 1) p) : (p.resendOne C ch m).1 = .ok () ∧ Vacant k (p.resendOne C ch m).2 := by
  have hctl : ch ≠ .control := by
    rintro rfl
    cases hch
  have hroom : p.net.pending.length + (k + 1) ≤ p.side.maxPendingPackets.toNat := h.2
  have hok : (p.queueMessagePacket C ch m.userType m.encodedPayload m.priority).1 = .ok () := by
    rw [Party.queueMessagePacket, if_neg hctl, Party.queueInternalMessage_ok_iff hC hm]
    exact ⟨h.1, by omega⟩
  have hq := Party.queueMessagePacket_queued C ch m.userType m.encodedPayload m.priority p
  unfold Party.resendOne
  cases hr : p.queueMessagePacket C ch m.userType m.encodedPayload m.priority with
  | mk rc q =>
    rw [hr] at hq hok
    obtain rfl : rc = .ok () := hok
    obtain ⟨hside, hseal, hpackets⟩ := hq.took
    exact ⟨rfl, hseal.trans h.1, by rw [hside, hpackets]; omega⟩

/-- A pass that finds the packet queue vacant leaves everything in flight. -/
theorem Aloft.resendChannel (hC : C.IdealAead) {ch : Channel} (hch : ch.isReliable = true)
    (now : UInt64) (h : Aloft cfg (p.session.reliableFor ch))
    (hvacant : Vacant (k + (p.session.reliableFor ch).pending.length) p) :
    Aloft cfg ((p.resendChannel C ch now).2.session.reliableFor ch) ∧
      Vacant k (p.resendChannel C ch now).2 := by
  obtain ⟨hok, hroom⟩ := ReliableSession.resendDue_ok now (Party.resendOne C ch) Vacant
    (fun k q hq => hq.mono (Nat.le_succ k))
    (fun m k q hm hq => hq.resendOne hC hch (h.short _ hm)) k p hvacant
  obtain ⟨n, hrep⟩ := Party.resendChannel_replaces (C := C) ch now p
  have hcont := ((p.session.reliableFor ch).resendDue_spec now (Party.resendOne C ch)
    (fun _ => True) (fun _ _ _ _ => trivial) p trivial).1
  rw [hrep.own]
  refine ⟨⟨⟨h.sound.counted.resendDue now _ p, h.sound.ordered.resendDue h.sound.counted now _ p⟩,
    h.aloft.resendDue h.sound.counted p hok, h.short.subset ?_, ?_⟩, ?_⟩
  · rw [hcont]
    exact List.Subset.refl _
  · exact (ReliableSession.sameNumbers_resendDue now _ _ p).cfg.trans h.cfg_eq
  · unfold Party.resendChannel
    refine ⟨?_, hroom.2⟩
    rw [← hroom.1]
    exact Party.canSeal_congr rfl (by simp) (by simp)

theorem aloft_pumpReliable (hC : C.IdealAead) (now : UInt64) (hvacant : Vacant
      (p.session.reliable.pending.length + p.session.orderedReliable.pending.length) p)
    (h : ∀ ch, ch.isReliable = true → Aloft cfg (p.session.reliableFor ch)) :
    ∀ ch, ch.isReliable = true → Aloft cfg ((p.pumpReliable C now).2.session.reliableFor ch) := by
  -- Along the pass the packet queue stays vacant for the channels still to come.
  suffices hJ : ([] : List Channel).Nodup ∧ (∀ ch ∈ ([] : List Channel), ch.isReliable = true) ∧
      Vacant 0 (p.pumpReliable C now).2 ∧ ∀ ch, ch.isReliable = true →
        Aloft cfg ((p.pumpReliable C now).2.session.reliableFor ch) from hJ.2.2.2
  refine Party.pumpReliable_induction (C := C) (J := fun chs _ q => chs.Nodup ∧
    (∀ ch ∈ chs, ch.isReliable = true) ∧
    Vacant (chs.map fun ch => (q.session.reliableFor ch).pending.length).sum q ∧
    ∀ ch, ch.isReliable = true → Aloft cfg (q.session.reliableFor ch)) now ?_ ?_ ?_ ?_ ?_
  · refine ⟨by decide, by decide, ?_, fun ch hch => ?_⟩
    · have hlen : ∀ ch, ((p.mapSession (Party.expirePending now)).session.reliableFor ch
          ).pending.length ≤ (p.session.reliableFor ch).pending.length := by
        intro ch
        rw [Party.mapSession_session, Party.reliableFor_expirePending]
        exact List.filter_sublist.length_le
      refine Vacant.mono (k := p.session.reliable.pending.length +
        p.session.orderedReliable.pending.length) hvacant ?_
      simpa [Session.reliableFor] using Nat.add_le_add (hlen .reliable) (hlen .reliableOrdered)
    · rw [Party.mapSession_session, Party.reliableFor_expirePending]
      exact (h ch hch).expireOld now
  · intro ch chs sent q hch hJ
    obtain ⟨hnodup, hrel, hroom, hK⟩ := hJ
    rw [List.nodup_cons] at hnodup
    rw [List.forall_mem_cons] at hrel
    rw [List.map_cons, List.sum_cons, Nat.add_comm] at hroom
    obtain ⟨haloft, hvac⟩ := (hK ch hch).resendChannel hC hch now hroom
    obtain ⟨n, hrep⟩ := Party.resendChannel_replaces (C := C) ch now q
    have hother : ∀ ch', ch'.isReliable = true → ch' ≠ ch →
        (q.resendChannel C ch now).2.session.reliableFor ch' = q.session.reliableFor ch' :=
      fun ch' hch' hne => hrep.other ch' fun hsame => hne (eq_of_reliableOrdered_iff hch hch' hsame)
    refine ⟨hnodup.2, hrel.2, ?_, fun ch' hch' => ?_⟩
    · rw [List.map_congr_left fun ch' hmem => by
        rw [hother ch' (hrel.2 ch' hmem) fun heq => hnodup.1 (heq ▸ hmem)]]
      exact hvac
    · by_cases hsame : ch' = ch
      · exact hsame ▸ haloft
      · rw [hother ch' hch' hsame]
        exact hK ch' hch'
  · exact fun sent q f hJ => hJ
  · exact fun chs sent q hJ =>
      ⟨List.nodup_nil, by simp, hJ.2.2.1.mono (Nat.zero_le _), hJ.2.2.2⟩
  · exact ⟨List.nodup_nil, by simp, hvacant.mono (Nat.zero_le _), h⟩

/-- The ids of a channel that are transmitted and pending are no more than may be in flight. -/
theorem outstanding_bounded (hC : C.IdealAead) (config : ClientConfig)
    (hstart : ∀ ch, e.party.session.reliableFor ch =
      ReliableSession.configure config.reliability {})
    (h : e.Logs C Unhindered sent e') (ch : Channel) (hch : ch.isReliable = true) :
    (outstanding ch sent e'.party).length ≤ config.reliability.maxInflightMessages.toNat := by
  have haloft : e'.party.Ended ∨ ∀ ch, ch.isReliable = true →
      Aloft config.reliability (e'.party.session.reliableFor ch) := by
    refine h.induction (K := fun _ rs => Aloft config.reliability rs) (fun _ _ hK => hK.sound) ?_ ?_
      ?_ (fun o t payload now p hop => hop) ?_
    · exact fun sent rs rs' hK hears => ⟨hears.sound hK.sound,
        hK.aloft.subset hears.pending_sublist.subset,
        hK.short.subset (hears.pending_sublist.map _).subset, hears.cfg.trans hK.cfg_eq⟩
    · intro t d prio life now queued sent rs n hK hroom
      have hids : rs.nextMessageId.toNat + 1 < 2 ^ 64 := by
        have := hroom.ids
        omega
      exact ⟨hK.sound.post hids t d prio life now queued,
        hK.aloft.post hK.sound.ordered t d prio life now queued hroom.lt,
        hK.short.post t d prio life now queued, (rs.post_cfg ..).trans hK.cfg_eq⟩
    · exact fun now p sent hop hest hK => aloft_pumpReliable hC now (hop hest) hK
    · intro ch _
      rw [hstart ch]
      exact ⟨⟨ReliableSession.counted_configure _, ReliableSession.ordered_of_nil rfl⟩,
        fun m hm => absurd hm List.not_mem_nil, fun c hc => absurd hc List.not_mem_nil, rfl⟩
  refine (length_outstanding_le ch sent e'.party).trans ?_
  rcases haloft with hend | hK
  · rw [hend.2 ch]
    exact Nat.zero_le _
  · rw [← (hK ch hch).cfg_eq]
    exact (hK ch hch).aloft.length_le (hK ch hch).sound.counted

theorem outstanding_bounded_pumped :
    ∃ sent e', Link.established.left.Logs .standIn Unhindered sent e' ∧
      sent = [⟨.reliable, 1, 5⟩, ⟨.reliable, 1, 500⟩] ∧ outstanding .reliable sent e'.party = [1] ∧
      (outstanding .reliable sent e'.party).length ≤
        (ClientConfig.reliability {}).maxInflightMessages.toNat := by
  have hlogs : Link.established.left.Logs .standIn Unhindered _ _ :=
    .step (.step .start [] (.send { channel := .reliable } 7 [1] 5)
      (fun _ _ => ⟨by decide +kernel, by decide +kernel⟩)) [] (.pumpReliable 500)
      fun _ => ⟨by decide +kernel, by decide +kernel⟩
  exact ⟨_, _, hlogs, by decide +kernel, by decide +kernel,
    outstanding_bounded Crypto.standIn_idealAead {} (fun ch => by cases ch <;> rfl) hlogs .reliable
      rfl⟩

/-- Two sends put two messages on the way where one is allowed. -/
theorem outstanding_exceeds_limit :
    validateClientConfig { reliability := { maxInflightMessages := 1 } } = .ok () ∧
    ∃ sent e', single.Logs .standIn (fun _ _ => True) sent e' ∧
      outstanding .reliable sent e'.party = [1, 2] := by
  refine ⟨by decide, _, _, .step (.step .start []
    (.send { channel := .reliable } 7 [1] 10) trivial) []
    (.send { channel := .reliable } 7 [2] 10) trivial, ?_⟩
  decide +kernel

end End

end SecureCnet
