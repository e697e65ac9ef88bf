import SecureCnet.Delivery.Pacing
import SecureCnet.Session.Continuity

/-!
# What session code does to the packet queue

Packets join the queue one at a time, while it has room, behind the packets of their
priority; a client drops all of them when its connection ends. Session code touches the
send budget only by telling the rate controller what happened. Everything else leaves
queue and budget alone.
-/

namespace SecureCnet

/-- A change of the packet queue. -/
inductive Transport.QueueStep (maxPending : UInt32) (net : Transport) : Transport → Prop
  | idle {net' : Transport} (hpending : net'.pending = net.pending)
      (hbytes : net'.pendingBytes = net.pendingBytes) (harrivals : net'.arrivals = net.arrivals) :
      QueueStep maxPending net net'
  | push (pkt : PendingPacket) (hroom : net.pending.length < maxPending.toNat)
      (hlen : pkt.bytes.length ≤ NetConfig.maxPacketBytes) :
      QueueStep maxPending net (net.push pkt)
  | cleared {net' : Transport} (hpending : net'.pending = []) (hbytes : net'.pendingBytes = 0) :
      QueueStep maxPending net net'

/-- A sequence of changes of the packet queue. -/
abbrev Transport.Fills (maxPending : UInt32) : Transport → Transport → Prop :=
  Relation.ReflTransGen (Transport.QueueStep maxPending)

/-- One packet is served before another: it has a higher priority, or the same and came earlier. -/
def PendingPacket.Before (a b : PendingPacket) : Prop :=
  b.priority.rank < a.priority.rank ∨ a.priority.rank = b.priority.rank ∧ a.arrival < b.arrival

theorem PendingPacket.Before.rank_le {a b : PendingPacket} (h : a.Before b) :
    b.priority.rank ≤ a.priority.rank :=
  h.elim le_of_lt fun h => h.1.ge

namespace Transport

variable {maxPending : UInt32} {net net' : Transport}

/-- The packets stand in the order of service, with the numbers of their arrival. The queue is
within its limit, and its bytes are counted. -/
structure InOrder (maxPending : UInt32) (net : Transport) : Prop where
  served : net.pending.Pairwise PendingPacket.Before
  arrived : ∀ pkt ∈ net.pending, pkt.arrival < net.arrivals
  short : ∀ pkt ∈ net.pending, pkt.bytes.length ≤ NetConfig.maxPacketBytes
  room : net.pending.length ≤ maxPending.toNat
  bytes : net.pendingBytes.toNat = (net.pending.map fun pkt => pkt.bytes.length).sum

theorem inOrder_nil (hpending : net.pending = []) (hbytes : net.pendingBytes = 0) :
    net.InOrder maxPending := by
  constructor <;> simp [hpending, hbytes]

theorem sum_bytes_lt {l : List PendingPacket} (hlen : l.length ≤ maxPending.toNat)
    (hshort : ∀ pkt ∈ l, pkt.bytes.length ≤ NetConfig.maxPacketBytes) :
    (l.map fun pkt => pkt.bytes.length).sum < 2 ^ 64 := by
  have hsum := List.sum_le_card_nsmul (l.map fun pkt => pkt.bytes.length) NetConfig.maxPacketBytes
    (by simpa using hshort)
  have hmax := maxPending.toNat_lt
  simp only [List.length_map, smul_eq_mul, NetConfig.maxPacketBytes_eq] at hsum
  omega

/-- A packet is put behind those of its own and of higher priority. -/
theorem InOrder.push_pending (h : net.InOrder maxPending) (pkt : PendingPacket) :
    ∃ l r, net.pending = l ++ r ∧
      (net.push pkt).pending = l ++ { pkt with arrival := net.arrivals } :: r ∧
      (∀ q ∈ l, pkt.priority.rank ≤ q.priority.rank) ∧
      ∀ q ∈ r, q.priority.rank < pkt.priority.rank := by
  have hserved := h.served
  unfold push
  dsimp only
  generalize net.pending = pending at hserved
  induction pending with
  | nil => exact ⟨[], [], rfl, rfl, by simp, by simp⟩
  | cons q rest ih =>
    obtain ⟨hq, hrest⟩ := List.pairwise_cons.mp hserved
    by_cases hlow : q.priority.rank < pkt.priority.rank
    · refine ⟨[], q :: rest, rfl, ?_, by simp, ?_⟩
      · rw [List.orderedInsert_cons, if_pos hlow]
        rfl
      · intro x hx
        rcases List.mem_cons.mp hx with rfl | hx
        · exact hlow
        · exact (hq x hx).rank_le.trans_lt hlow
    · obtain ⟨l, r, hsplit, hpush, hl, hr⟩ := ih hrest
      refine ⟨q :: l, r, by rw [hsplit]; rfl, ?_, ?_, hr⟩
      · rw [List.orderedInsert_cons, if_neg hlow, hpush]
        rfl
      · intro x hx
        rcases List.mem_cons.mp hx with rfl | hx
        · exact not_lt.mp hlow
        · exact hl x hx

/-- A packet that joins the queue is served after those of its priority. -/
theorem InOrder.push (h : net.InOrder maxPending) (pkt : PendingPacket)
    (hroom : net.pending.length < maxPending.toNat)
    (hlen : pkt.bytes.length ≤ NetConfig.maxPacketBytes) : (net.push pkt).InOrder maxPending := by
  obtain ⟨l, r, hsplit, hpush, hl, hr⟩ := h.push_pending pkt
  have hserved := h.served
  have harrived := h.arrived
  have hshort := h.short
  rw [hsplit] at hroom hserved harrived hshort
  have hshort' : ∀ q ∈ l ++ { pkt with arrival := net.arrivals } :: r,
      q.bytes.length ≤ NetConfig.maxPacketBytes := by
    rw [List.forall_mem_append] at hshort
    rw [List.forall_mem_append, List.forall_mem_cons]
    exact ⟨hshort.1, hlen, hshort.2⟩
  have hroom' : (l ++ { pkt with arrival := net.arrivals } :: r).length ≤ maxPending.toNat := by
    simp only [List.length_append, List.length_cons] at hroom ⊢
    omega
  constructor
  · rw [hpush]
    obtain ⟨hsl, hsr, hlr⟩ := List.pairwise_append.mp hserved
    refine List.pairwise_append.mpr ⟨hsl, List.pairwise_cons.mpr ⟨fun q hq => Or.inl (hr q hq), hsr⟩,
      ?_⟩
    intro a ha b hb
    rcases List.mem_cons.mp hb with rfl | hb
    · have hearlier := harrived a (List.mem_append_left r ha)
      exact (hl a ha).lt_or_eq.imp id fun heq => ⟨heq.symm, hearlier⟩
    · exact hlr a ha b hb
  · have hcounted : ∀ q ∈ l ++ r, q.arrival < (net.push pkt).arrivals :=
      fun q hq => Nat.lt_succ_of_lt (harrived q hq)
    rw [List.forall_mem_append] at hcounted
    rw [hpush, List.forall_mem_append, List.forall_mem_cons]
    exact ⟨hcounted.1, Nat.lt_succ_self _, hcounted.2⟩
  · rw [hpush]
    exact hshort'
  · rw [hpush]
    exact hroom'
  · have hsum := sum_bytes_lt hroom' hshort'
    have hbytes := h.bytes
    have hfits : (UInt64.ofNat pkt.bytes.length).toNat = pkt.bytes.length := by
      rw [UInt64.toNat_ofNat', Nat.mod_eq_of_lt]
      exact hlen.trans_lt (by decide)
    change (net.pendingBytes + UInt64.ofNat pkt.bytes.length).toNat = _
    rw [hpush, UInt64.toNat_add, hfits, hbytes, hsplit]
    simp only [List.map_append, List.map_cons, List.sum_append, List.sum_cons] at hsum ⊢
    rw [Nat.mod_eq_of_lt (by omega)]
    omega

theorem InOrder.congr (h : net.InOrder maxPending) (hpending : net'.pending = net.pending)
    (hbytes : net'.pendingBytes = net.pendingBytes) (harrivals : net'.arrivals = net.arrivals) :
    net'.InOrder maxPending := by
  refine ⟨?_, ?_, ?_, ?_, ?_⟩ <;> rw [hpending]
  · exact h.served
  · rw [harrivals]
    exact h.arrived
  · exact h.short
  · exact h.room
  · rw [hbytes]
    exact h.bytes

/-- A packet that leaves takes its bytes with it. -/
theorem InOrder.removeAt (h : net.InOrder maxPending) {i : ℕ} {pkt : PendingPacket}
    (hpkt : net.pending[i]? = some pkt) :
    (net.removeAt i pkt.bytes.length).InOrder maxPending := by
  obtain ⟨hi, rfl⟩ := List.getElem?_eq_some_iff.mp hpkt
  have hsub : (net.pending.eraseIdx i).Sublist net.pending := List.eraseIdx_sublist ..
  have hsplit : (net.pending.map fun q => q.bytes.length).sum =
      net.pending[i].bytes.length + ((net.pending.eraseIdx i).map fun q => q.bytes.length).sum := by
    have hperm := List.getElem_cons_eraseIdx_perm hi
    rw [← (hperm.map _).sum_eq, List.map_cons, List.sum_cons]
  constructor
  · exact h.served.sublist hsub
  · exact fun q hq => h.arrived q (hsub.subset hq)
  · exact fun q hq => h.short q (hsub.subset hq)
  · exact hsub.length_le.trans h.room
  · have hbytes := h.bytes
    have hlt := net.pendingBytes.toNat_lt
    change (net.pendingBytes - UInt64.ofNat net.pending[i].bytes.length).toNat = _
    have hfits : (UInt64.ofNat net.pending[i].bytes.length).toNat =
        net.pending[i].bytes.length := by
      rw [UInt64.toNat_ofNat', Nat.mod_eq_of_lt (by omega)]
    rw [UInt64.toNat_sub_of_le _ _ (by rw [UInt64.le_iff_toNat_le, hfits]; omega), hfits]
    change _ = ((net.pending.eraseIdx i).map fun q => q.bytes.length).sum
    omega

theorem Fills.inOrder (h : net.Fills maxPending net') (hnet : net.InOrder maxPending) :
    net'.InOrder maxPending := by
  induction h with
  | refl => exact hnet
  | tail _ hstep ih =>
    cases hstep with
    | idle hpending hbytes harrivals => exact ih.congr hpending hbytes harrivals
    | push pkt hroom hlen => exact ih.push pkt hroom hlen
    | cleared hpending hbytes => exact inOrder_nil hpending hbytes

end Transport

theorem length_of_buildPacket {C : Crypto} {kind : PacketKind} {encrypted : Bool}
    {payload : Bytes} {connId seq : UInt64} {key : Block 32} {bytes : Bytes}
    (h : buildPacket C kind encrypted payload connId seq key = .ok bytes) :
    bytes.length ≤ NetConfig.maxPacketBytes := by
  cases encrypted with
  | false => exact length_of_parsePacket (parsePacket_buildPacket_plain h)
  | true =>
    obtain ⟨c, -, -, hparse⟩ := parsePacket_buildPacket_encrypted h
    exact length_of_parsePacket hparse

section Queue

variable {C : Crypto} {net : Transport}

theorem sealAndEnqueue_fills (maxPending : UInt32) (dest : Endpoint) (owner : UInt64)
    (kind : PacketKind) (encrypted : Bool) (payload : Bytes) (connId seq : UInt64) (key : Block 32)
    (priority : SendPriority) (net : Transport) :
    net.Fills maxPending (sealAndEnqueue C maxPending dest owner kind encrypted payload connId seq
      key priority net).2 := by
  unfold sealAndEnqueue enqueuePendingPacket
  cases hb : buildPacket C kind encrypted payload connId seq key with
  | error e => exact .refl
  | ok bytes =>
    dsimp only
    split_ifs with hfull
    · exact .refl
    · exact .single (.push _ (not_le.mp hfull) (length_of_buildPacket hb))

theorem queuePlainPacket_fills (config : ServerConfig) (now : UInt64) (dest : Endpoint)
    (kind : PacketKind) (payload : Bytes) (connId seq : UInt64) (priority : SendPriority)
    (owner : UInt64) (net : Transport) :
    net.Fills config.maxPendingPackets (net.queuePlainPacket C config now dest kind payload connId
      seq priority owner).2 := by
  have hnoted : net.Fills config.maxPendingPackets (net.canAmplifyTo config.abuse dest
      (UInt64.ofNat (NetConfig.packetHeaderBytes + payload.length)) now).2 :=
    .single (.idle rfl rfl rfl)
  unfold Transport.queuePlainPacket
  dsimp only
  split_ifs
  · exact .refl
  · exact hnoted
  · exact hnoted.trans (sealAndEnqueue_fills ..)

end Queue

namespace Party

variable {C : Crypto} {A : Channel → UInt64 → Prop} {p p' p'' : Party} {kind : PacketKind}
  {payload : Bytes} {priority : SendPriority} {rc : Result Unit}

/-- What session code does to the packet queue and to the send budget. -/
structure Stocks (p p' : Party) : Prop where
  side : p'.side = p.side
  queue : p.net.Fills p.side.maxPendingPackets p'.net
  budget : Relation.ReflTransGen SendBudget.Event p.session.budget p'.session.budget

theorem stocks_of_eq (hside : p'.side = p.side) (hnet : p'.net = p.net)
    (hbudget : p'.session.budget = p.session.budget) : p.Stocks p' := by
  refine ⟨hside, ?_, ?_⟩
  · rw [hnet]
  · rw [hbudget]

theorem Stocks.refl (p : Party) : p.Stocks p := stocks_of_eq rfl rfl rfl

theorem Stocks.trans (h : p.Stocks p') (h' : p'.Stocks p'') : p.Stocks p'' := by
  refine ⟨h'.side.trans h.side, h.queue.trans ?_, h.budget.trans h'.budget⟩
  rw [← h.side]
  exact h'.queue

theorem Queued.stocks (h : Queued C p kind payload priority rc p') : p.Stocks p' := by
  cases h with
  | refused e => exact .refl p
  | burned e => exact stocks_of_eq rfl rfl rfl
  | dropped e => exact stocks_of_eq rfl rfl rfl
  | queued bytes hbuild hkeys hroom =>
    exact ⟨rfl, .single (.push _ hroom (length_of_buildPacket hbuild)), .refl⟩

theorem queuePacketClient_stocks {config : ClientConfig} (hside : p.side = .client config)
    (kind : PacketKind) (payload : Bytes) (priority : SendPriority) :
    p.Stocks (p.queuePacketClient C config kind false payload priority).2 := by
  unfold queuePacketClient
  simp only [Bool.false_and, Bool.false_eq_true, if_false]
  split_ifs
  · exact .refl p
  · refine ⟨rfl, ?_, .refl⟩
    rw [show p.side.maxPendingPackets = config.maxPendingPackets by rw [hside]; rfl]
    exact sealAndEnqueue_fills ..

theorem queuePlainServer_stocks {config : ServerConfig} (hside : p.side = .server config)
    (now : UInt64) (kind : PacketKind) (payload : Bytes) (priority : SendPriority) :
    p.Stocks (p.queuePlainServer C config now kind payload priority).2 := by
  have hnumbered : p.net.Fills config.maxPendingPackets
      { p.net with statelessSeq := p.net.statelessSeq + 1 } := .single (.idle rfl rfl rfl)
  refine ⟨rfl, ?_, .refl⟩
  rw [show p.side.maxPendingPackets = config.maxPendingPackets by rw [hside]; rfl]
  exact hnumbered.trans (queuePlainPacket_fills ..)

theorem Dies.stocks (h : Dies A p p') : p.Stocks p' :=
  ⟨h.side, .single (.cleared h.queue h.bytes), h.budget ▸ .refl⟩

theorem Change.stocks (h : Change C A p p') : p.Stocks p' := by
  cases h with
  | session s h => exact ⟨rfl, .refl, h.budget⟩
  | dies _ h => exact h.stocks
  | ends config hside hstate =>
    rw [ends_eq hstate]
    exact stocks_of_eq rfl rfl rfl
  | queue _ _ _ _ _ h => exact h.stocks
  | ack q _ _ h => exact h.stocks.trans (stocks_of_eq rfl rfl rfl)
  | plain _ h =>
    cases h with
    | client config payload hside => exact queuePacketClient_stocks hside ..
    | server config now payload hside _ => exact queuePlainServer_stocks hside ..

theorem Steps.stocks (h : Steps C A p p') : p.Stocks p' := by
  induction h with
  | refl => exact .refl p
  | tail _ hc ih => exact ih.trans hc.stocks

theorem Sending.stocks {msgs : List MsgView} (h : Sending C priority p msgs p') : p.Stocks p' := by
  refine h.rule .refl .trans ?_ Queued.stocks
  rintro p s ⟨_, _, _, _, _, es, rfl, -⟩
  exact stocks_of_eq rfl rfl rfl

theorem Ran.stocks (h : p.Ran C p') : p.Stocks p' := by
  cases h with
  | steps h => exact h.stocks
  | sends h => exact h.stocks

/-! ### Visits of a flush loop -/

/-- The bucket does not hold enough for the packet, even after the refill. -/
def Blocked (now : UInt64) (b : SendBudget) (pkt : PendingPacket) : Prop :=
  (b.refillSendBudget now).sendBudgetBytes < UInt64.ofNat pkt.bytes.length

/-- Nothing else leaves. -/
theorem flushAt_eq_some {now : UInt64} {i : ℕ} {socket : SocketResult} {bytes : Bytes}
    (h : p.flushAt now i socket = (some bytes, p')) :
    ∃ pkt, p.net.pending[i]? = some pkt ∧ pkt.bytes = bytes ∧
      ¬Blocked now p.session.budget pkt ∧
      p' = (p.mapBudget (SendBudget.refillSendBudget now)).packetSent now i pkt.bytes.length := by
  unfold flushAt at h
  cases hpkt : p.net.pending[i]? with
  | none =>
    rw [hpkt] at h
    cases h
  | some pkt =>
    rw [hpkt] at h
    dsimp only at h
    split_ifs at h with howner hblocked
    · cases h
    · cases h
    · cases socket with
      | sent =>
        cases h
        exact ⟨pkt, rfl, rfl, hblocked, rfl⟩
      | wouldBlock => cases h
      | failed => cases h

/-- A visit that sends nothing refills the bucket and backs off, at most. -/
theorem flushAt_none_budget {now : UInt64} {i : ℕ} {socket : SocketResult}
    (h : p.flushAt now i socket = (none, p')) :
    p'.session.budget = p.session.budget ∨
      p'.session.budget = p.session.budget.refillSendBudget now ∨
      p'.session.budget = (p.session.budget.refillSendBudget now).onBackpressure now := by
  unfold flushAt at h
  split at h
  · cases h
    exact Or.inl rfl
  · dsimp only at h
    split_ifs at h
    · cases h
      exact Or.inl rfl
    · cases h
      exact Or.inr (Or.inr rfl)
    · cases socket with
      | sent => cases h
      | wouldBlock =>
        cases h
        exact Or.inr (Or.inr rfl)
      | failed =>
        cases h
        exact Or.inr (Or.inl rfl)

end Party

end SecureCnet
