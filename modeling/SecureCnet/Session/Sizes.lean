import SecureCnet.Delivery.Accounting
import SecureCnet.Delivery.ReassemblyRuns
import SecureCnet.Session.Admission
import SecureCnet.Session.Failures
import SecureCnet.Session.Transparency
import SecureCnet.Session.Wraparound

/-!
# Size limits of the layers

Every layer of the send path has a largest payload of its own, derived from the size of a
datagram, and the validators have limits of theirs. The limits of the layers agree: a
message within the reassembly policy fails for lack of room only, its datagrams have the
allowed size, and a receiver with the same policy has room for it. The one limit that is
too small by an envelope is the byte budget of a retransmission queue.
-/

namespace SecureCnet

open Result

/-! ### The byte budget of a fresh queue -/

namespace ReliableSession

theorem validateReliabilityConfig_pending {cfg : ReliabilityConfig}
    (h : validateReliabilityConfig cfg = .ok ()) : 0 < cfg.maxPendingMessages.toNat := by
  unfold validateReliabilityConfig at h
  simp only [Result.bind_eq_ok, reject_eq_ok, exists_and_left, exists_const,
    Bool.or_eq_false_iff, decide_eq_false_iff_not] at h
  obtain ⟨-, -, ⟨hpending, -⟩, -⟩ := h
  apply Nat.pos_of_ne_zero
  intro h0
  exact hpending (UInt32.toNat_inj.mp h0)

/-- A fresh session takes a message exactly if its byte budget holds the message and its
envelope. The validator asks for less. -/
theorem fresh_enqueue_iff {cfg : ReliabilityConfig} (hcfg : validateReliabilityConfig cfg = .ok ())
    {d : Bytes} (hlen : d.length ≤ NetConfig.maxReliableMessageBytes) (t : UInt8)
    (prio : SendPriority) (life now : UInt64) :
    (∃ m, ((configure cfg {}).enqueue t d prio life now).1 = .ok m) ↔
      NetConfig.reliableEnvelopeBytes + d.length ≤ cfg.maxPendingBytes.toNat := by
  have hroom := validateReliabilityConfig_pending hcfg
  have hsize : (0 + UInt32.ofNat (8 + d.length)).toNat = 8 + d.length := by
    simp at hlen
    rw [UInt32.zero_add, UInt32.toNat_ofNat', Nat.mod_eq_of_lt (by omega)]
  have hadm : (configure cfg {}).AdmitsAt [d.length] 0 ↔
      NetConfig.reliableEnvelopeBytes + d.length ≤ cfg.maxPendingBytes.toNat := by
    rw [admitsAt_zero]
    change 0 < cfg.maxPendingMessages.toNat ∧ 0 + UInt32.ofNat (8 + d.length) ≤
      cfg.maxPendingBytes ∧ (1 : UInt64) ≠ 0 ↔ _
    rw [UInt32.le_iff_toNat_le, hsize]
    simp [hroom]
  rw [← hadm]
  constructor
  · rintro ⟨m, hm⟩
    by_contra hno
    obtain ⟨e, rs', he, -⟩ := enqueue_of_not_admits hno t prio life now
    rw [he] at hm
    cases hm
  · intro h
    exact ⟨_, by rw [enqueue_of_admits hlen h prio life now]⟩

/-- The default budget takes the longest message. -/
theorem fresh_enqueue_longest :
    ∃ m, ((configure {} {}).enqueue 0 (List.replicate 1244 7) .normal 0 5).1 = .ok m :=
  (fresh_enqueue_iff (by decide) (by rw [List.length_replicate]; decide) 0 .normal 0 5).mpr
    (by rw [List.length_replicate]; decide)

/-- A budget of exactly the longest message passes the validator, and the longest message does
not fit. -/
theorem fresh_enqueue_refused :
    validateReliabilityConfig { maxPendingBytes := 1244 } = .ok () ∧
      ((configure { maxPendingBytes := 1244 } {}).enqueue 0 (List.replicate 1244 7) .normal 0
        5).1 = fail .queueFull "reliable byte budget exhausted" := by
  decide +kernel

end ReliableSession

/-! ### Codes of the send path -/

def Errc.ForRoom (code : Errc) : Prop := code = .queueFull ∨ code = .stateError

theorem forRoom_queueFull : Errc.ForRoom .queueFull := Or.inl rfl

theorem forRoom_stateError : Errc.ForRoom .stateError := Or.inr rfl

variable {C : Crypto}

namespace Party

variable {p q : Party} {payload d : Bytes} {ch : Channel}

theorem sealAndEnqueue_forRoom (hC : C.IdealAead)
    (hlen : payload.length ≤ NetConfig.maxEncryptedPlaintextBytes) (maxPending : UInt32)
    (dest : Endpoint) (owner : UInt64) (kind : PacketKind) (connId seq : UInt64) (key : Block 32)
    (priority : SendPriority) (net : Transport) :
    FailsWith Errc.ForRoom (sealAndEnqueue C maxPending dest owner kind true payload connId seq
      key priority net).1 := by
  obtain ⟨bytes, hb⟩ := buildPacket_of_le hC hlen kind connId seq key
  rw [sealAndEnqueue, hb]
  unfold enqueuePendingPacket
  dsimp only
  split_ifs
  · exact failsWith_fail forRoom_queueFull _
  · exact failsWith_ok _

/-- A payload that fits is refused for lack of room or of keys only. -/
theorem queueSecure_forRoom (hC : C.IdealAead)
    (hlen : payload.length ≤ NetConfig.maxEncryptedPlaintextBytes) (kind : PacketKind)
    (priority : SendPriority) (p : Party) :
    FailsWith Errc.ForRoom (p.queueSecure C kind payload priority).1 := by
  unfold queueSecure
  cases p.side with
  | client config =>
    dsimp only
    unfold queuePacketClient
    simp only [not_lt.mpr hlen, decide_false, Bool.and_false, Bool.false_eq_true, if_false,
      Bool.not_true, Bool.false_and, if_true]
    split_ifs
    · exact failsWith_fail forRoom_stateError _
    · exact sealAndEnqueue_forRoom hC hlen _ _ _ _ _ _ _ _ _
  | server config =>
    dsimp only
    unfold queuePacketServer
    dsimp only
    rw [if_neg (not_lt.mpr hlen)]
    split_ifs
    · exact failsWith_fail forRoom_stateError _
    · exact sealAndEnqueue_forRoom hC hlen _ _ _ _ _ _ _ _ _

theorem queueInternalMessage_forRoom (hC : C.IdealAead)
    (hlen : d.length ≤ NetConfig.maxMessageBytes) (ch : Channel) (t : UInt8)
    (priority : SendPriority) (p : Party) :
    FailsWith Errc.ForRoom (p.queueInternalMessage C ch t d priority).1 := by
  have hmax : (MsgView.encode ⟨ch, t, d⟩).length ≤ NetConfig.maxEncryptedPlaintextBytes := by
    simp at hlen ⊢
    omega
  unfold queueInternalMessage
  rw [writeMessage_eq, if_neg (not_lt.mpr hlen), ByteWriter.writeBytes_fresh, if_pos hmax]
  exact queueSecure_forRoom hC hmax .message priority p

theorem queueMessagePacket_forRoom (hC : C.IdealAead) (hlen : d.length ≤ NetConfig.maxMessageBytes)
    (ch : Channel) (t : UInt8) (priority : SendPriority) (p : Party) :
    FailsWith Errc.ForRoom (p.queueMessagePacket C ch t d priority).1 := by
  unfold queueMessagePacket
  split_ifs
  · exact failsWith_fail forRoom_stateError _
  · exact queueInternalMessage_forRoom hC hlen ch t priority p

theorem sendReliableMessage_forRoom (hC : C.IdealAead)
    (hlen : d.length ≤ NetConfig.maxReliableMessageBytes)
    (hid : (p.session.reliableFor ch).nextMessageId ≠ 0) (t : UInt8) (priority : SendPriority)
    (life now : UInt64) :
    FailsWith Errc.ForRoom (p.sendReliableMessage C ch t d priority life now).1 := by
  unfold sendReliableMessage
  rw [if_neg (not_lt.mpr hlen)]
  rcases (p.session.reliableFor ch).enqueue_eq t d priority life now with
    ⟨msg, he, -⟩ | ⟨msg, he, hzero | hlong⟩ | ⟨he, -⟩
  · rw [he]
    exact failsWith_fail forRoom_queueFull _
  · exact absurd hzero hid
  · exact absurd hlen (not_le.mpr hlong)
  · rw [he]
    dsimp only
    have hmsg : ((p.session.reliableFor ch).queued t d priority life now).encodedPayload.length ≤
        NetConfig.maxMessageBytes := by
      simp [ReliableSession.queued] at hlen ⊢
      omega
    have hroom := queueMessagePacket_forRoom hC hmsg ch t priority
    split
    · next e q hq =>
      intro e' he'
      cases he'
      exact hroom _ e (congrArg Prod.fst hq)
    · exact failsWith_ok _

variable {m : FragmentedMessage} {o : SendOptions} {now : UInt64}

theorem sendPiece_forRoom (hC : C.IdealAead) (hm : m.Sendable) {i : UInt16}
    (hi : i < m.fragmentCount)
    (hid : o.channel.isReliable = true → (p.session.reliableFor o.channel).nextMessageId ≠ 0) :
    FailsWith Errc.ForRoom (p.sendPiece C o now m i).1 := by
  have hw := hm.piece_wellFormed hi
  have hlen : (m.piece i).encode.length ≤ 1236 := by
    have := hw.data_le
    rw [FragmentView.length_encode]
    omega
  have hwrite := writeFragmentPayload_eq hw ⟨NetConfig.maxMessageBytes, []⟩
  rw [ByteWriter.writeBytes_fresh, if_pos (hlen.trans (by decide))] at hwrite
  unfold sendPiece
  dsimp only
  rw [piece_data_eq hm.short hi, ← FragmentedMessage.piece, hwrite]
  dsimp only
  split_ifs with hrel
  · exact sendReliableMessage_forRoom hC (hlen.trans (by decide)) (hid hrel) _ _ _ _
  · exact queueInternalMessage_forRoom hC (hlen.trans (by decide)) _ _ _ _

/-- None of the numbers that the next messages of a channel take is 0. -/
def HasIds (ch : Channel) (count : ℕ) (p : Party) : Prop :=
  ch.isReliable = true →
    ∀ k < count, (p.session.reliableFor ch).nextMessageId + UInt64.ofNat k ≠ 0

theorem HasIds.head {count : ℕ} (h : p.HasIds ch (count + 1)) (hrel : ch.isReliable = true) :
    (p.session.reliableFor ch).nextMessageId ≠ 0 := by
  simpa using h hrel 0 (Nat.succ_pos _)

theorem HasIds.tail {count : ℕ} (h : p.HasIds ch (count + 1)) (hnext : ch.isReliable = true →
      (q.session.reliableFor ch).nextMessageId = (p.session.reliableFor ch).nextMessageId + 1) :
    q.HasIds ch count := by
  intro hrel k hk
  rw [hnext hrel, UInt64.add_assoc, UInt64.add_comm 1]
  simpa [UInt64.ofNat_add] using h hrel (k + 1) (Nat.succ_lt_succ hk)

theorem sendPieces_forRoom (hC : C.IdealAead) (hm : m.Sendable) {is : List UInt16}
    (his : ∀ i ∈ is, i < m.fragmentCount) (hids : p.HasIds o.channel is.length) :
    FailsWith Errc.ForRoom (p.sendPieces C o now m is).1 := by
  induction is generalizing p with
  | nil => exact failsWith_ok _
  | cons i is ih =>
    have hi := his i List.mem_cons_self
    have hpiece : FailsWith Errc.ForRoom (p.sendPiece C o now m i).1 :=
      sendPiece_forRoom hC hm hi hids.head
    unfold sendPieces
    cases hr : p.sendPiece C o now m i with
    | mk rc q =>
      rw [hr] at hpiece
      cases rc with
      | error e => exact hpiece
      | ok u =>
        -- The piece took one number, so one fewer is needed from here on.
        rcases sendPiece_sending rfl hm.application hm.nonempty hm.short hi .start hr with
          ⟨-, -, -, hnext⟩ | ⟨⟨e, he⟩, -⟩
        · exact ih (fun j hj => his j (List.mem_cons_of_mem _ hj)) (hids.tail hnext)
        · cases he

/-- The numbers a call of `send` takes are not 0. -/
structure HasNumbers (o : SendOptions) (payload : Bytes) (p : Party) : Prop where
  fragment : p.session.nextFragmentMessageId ≠ 0
  ordered : p.session.nextOrderedSequence ≠ 0
  sequenced : p.session.nextSequencedSequence ≠ 0
  message : p.HasIds o.channel
    (max 1 (fragmentCountForLength (UInt16.ofNat payload.length)).toNat)

theorem HasIds.mono {n k : ℕ} (h : p.HasIds ch n) (hk : k ≤ n) : p.HasIds ch k :=
  fun hrel j hj => h hrel j (hj.trans_le hk)

theorem sendFragmented_forRoom (hC : C.IdealAead) (hallow : p.AllowsFragments o payload)
    (hpos : 0 < payload.length) (hshort : payload.length < 2 ^ 16) (hnum : p.HasNumbers o payload)
    (t : UInt8) : FailsWith Errc.ForRoom (p.sendFragmented C o t payload now).1 := by
  have hm : (p.session.fragmentedMessage o.channel t payload).Sendable := by
    refine ⟨hnum.fragment, ?_, hpos, hshort⟩
    simpa [Channel.isApplication, Session.fragmentedMessage] using hallow.2.1
  rw [sendFragmented_of_allows hallow]
  apply sendPieces_forRoom hC hm
  · exact fun i hi => lt_of_mem_pieceIndices hi
  · intro hrel k hk
    rw [(sameQueues_startFragments o.channel p).reliableFor]
    rw [pieceIndices, List.length_map, List.length_range] at hk
    exact hnum.message hrel k (hk.trans_le (le_max_right _ _))

theorem writeOrderedPayload_of_le {sequence : UInt64} (hseq : sequence ≠ 0)
    (hlen : d.length ≤ NetConfig.maxOrderedMessageBytes) :
    writeOrderedPayload ⟨NetConfig.maxReliableMessageBytes, []⟩ sequence d =
      .ok ⟨NetConfig.maxReliableMessageBytes, be64 sequence ++ d⟩ := by
  rw [writeOrderedPayload, writeEnvelope_eq, if_neg hseq, if_neg (not_lt.mpr hlen),
    ByteWriter.writeBytes_fresh, if_pos (by simp at hlen ⊢; omega)]

theorem writeSequencedPayload_of_le {sequence : UInt64} (hseq : sequence ≠ 0)
    (hlen : d.length ≤ NetConfig.maxSequencedMessageBytes) :
    writeSequencedPayload ⟨NetConfig.maxMessageBytes, []⟩ sequence d =
      .ok ⟨NetConfig.maxMessageBytes, be64 sequence ++ d⟩ := by
  rw [writeSequencedPayload, writeEnvelope_eq, if_neg hseq, if_neg (not_lt.mpr hlen),
    ByteWriter.writeBytes_fresh, if_pos (by simp at hlen ⊢; omega)]

/-- A send within the reassembly policy fails for lack of room or keys only. -/
theorem send_forRoom (hC : C.IdealAead) (happ : o.channel.isApplication = true)
    (hshort : payload.length < 2 ^ 16)
    (hallow : o.channel.maxInlinePayloadSize < payload.length → p.AllowsFragments o payload)
    (hnum : p.HasNumbers o payload) (t : UInt8) :
    FailsWith Errc.ForRoom (p.send C o t payload now).1 := by
  have hone : o.channel.isReliable = true →
      (p.session.reliableFor o.channel).nextMessageId ≠ 0 :=
    (hnum.message.mono (k := 0 + 1) (le_max_left _ _)).head
  unfold send
  by_cases hest : p.session.state = .established
  swap
  · rw [if_pos hest]
    exact failsWith_fail forRoom_stateError _
  rw [if_neg (not_not.mpr hest), if_neg (by simp [happ]),
    if_neg (by omega : ¬0xFFFF < payload.length)]
  by_cases hlarge : o.channel.maxInlinePayloadSize < payload.length
  · rw [if_pos hlarge]
    exact sendFragmented_forRoom hC (hallow hlarge) (by omega) hshort hnum t
  rw [if_neg hlarge]
  rw [not_lt] at hlarge
  cases hch : o.channel with
  | control =>
    rw [hch] at happ
    cases happ
  | reliable =>
    rw [hch] at hone hlarge
    rw [if_pos rfl]
    exact sendReliableMessage_forRoom hC hlarge (hone rfl) _ _ _ _
  | reliableOrdered =>
    rw [hch] at hone hlarge
    simp only [reduceCtorEq, if_false, if_true]
    rw [writeOrderedPayload_of_le hnum.ordered hlarge]
    dsimp only
    have hnext : ((p.mapSession Session.drawOrdered).session.reliableFor
        .reliableOrdered).nextMessageId ≠ 0 := hone rfl
    apply sendReliableMessage_forRoom hC _ hnext
    simp [Channel.maxInlinePayloadSize] at hlarge ⊢
    omega
  | sequencedUnreliable =>
    rw [hch] at hlarge
    simp only [reduceCtorEq, if_false, if_true]
    rw [writeSequencedPayload_of_le hnum.sequenced hlarge]
    dsimp only
    apply queueMessagePacket_forRoom hC
    simp [Channel.maxInlinePayloadSize] at hlarge ⊢
    omega
  | unreliable =>
    rw [hch] at hlarge
    simp only [reduceCtorEq, if_false]
    exact queueMessagePacket_forRoom hC hlarge _ _ _ _

/-! ### The size of a datagram -/

/-- Every queued packet was there before or is no longer than a datagram may be. -/
def QueuesSmall (p q : Party) : Prop :=
  ∀ pkt ∈ q.net.pending, pkt ∈ p.net.pending ∨ pkt.bytes.length ≤ NetConfig.maxPacketBytes

theorem QueuesSmall.refl (p : Party) : p.QueuesSmall p := fun _ h => Or.inl h

theorem QueuesSmall.trans {r : Party} (h : p.QueuesSmall q) (h' : q.QueuesSmall r) :
    p.QueuesSmall r := by
  intro pkt hpkt
  rcases h' pkt hpkt with hold | hsmall
  · exact h pkt hold
  · exact Or.inr hsmall

theorem Queued.queuesSmall {kind : PacketKind} {priority : SendPriority} {rc : Result Unit}
    (h : Queued C p kind payload priority rc q) : p.QueuesSmall q := by
  cases h with
  | refused e => exact .refl p
  | burned e => exact .refl p
  | dropped e => exact .refl p
  | queued bytes hbuild hkeys =>
    intro pkt hpkt
    rcases mem_push.mp hpkt with rfl | hold
    · obtain ⟨c, -, -, hparse⟩ := parsePacket_buildPacket_encrypted hbuild
      exact Or.inr (length_of_parsePacket hparse)
    · exact Or.inl hold

theorem Sending.queuesSmall {priority : SendPriority} {msgs : List MsgView}
    (h : Sending C priority p msgs q) : p.QueuesSmall q :=
  h.rule .refl .trans (fun p _ _ => .refl p) Queued.queuesSmall

end Party

/-! ### Room at the receiver -/

/-- What the validator asks of a policy that fragments. -/
structure FragmentationConfig.Sound (cfg : FragmentationConfig) : Prop where
  wire : cfg.maxReassembledMessageBytes.toNat ≤ 0xFFFF
  fragments : (cfg.maxReassembledMessageBytes.toNat + 1211) / 1212 ≤
    cfg.maxFragmentsPerMessage.toNat
  concurrent : 0 < cfg.maxConcurrentReassembliesPerPeer.toNat
  memory : cfg.maxReassembledMessageBytes.toNat ≤ cfg.maxTotalReassemblyMemoryPerPeer.toNat

theorem sound_of_validate {cfg : FragmentationConfig}
    (h : validateFragmentationConfig cfg = .ok ()) (hen : cfg.enabled = true) : cfg.Sound := by
  unfold validateFragmentationConfig at h
  simp only [hen, Bool.not_true, Bool.false_eq_true, if_false, Result.bind_eq_ok, reject_eq_ok,
    exists_and_left, exists_const, decide_eq_false_iff_not, Bool.or_eq_false_iff,
    NetConfig.maxFragmentDataBytes_eq] at h
  obtain ⟨-, ⟨-, hwire⟩, hcount, hconcurrent, hmemory, -⟩ := h
  constructor
  · exact UInt32.le_iff_toNat_le.mp (UInt32.not_lt.mp hwire)
  · exact not_lt.mp (of_decide_eq_false hcount)
  · apply Nat.pos_of_ne_zero
    intro h0
    exact hconcurrent (UInt32.toNat_inj.mp h0)
  · have hle := UInt64.le_iff_toNat_le.mp (UInt64.not_lt.mp hmemory)
    rwa [UInt32.toNat_toUInt64] at hle

namespace FragmentedMessage

variable {m : FragmentedMessage} {i : UInt16} {f : FragmentView}

theorem nonempty_of_transmit (h : m.transmit i = .ok f) : 0 < m.payload.length := by
  obtain ⟨w, hw, -⟩ := Result.bind_eq_ok.mp h
  unfold writeFragmentPayload at hw
  simp only [Result.guard_eq_ok] at hw
  apply Nat.pos_of_ne_zero
  intro h0
  have hzero : m.originalLength = 0 := by rw [originalLength, h0]; rfl
  exact hw.2.2.1 hzero

theorem transmit_eq_ok (hm : m.Sendable) (h : m.transmit i = .ok f) :
    i < m.fragmentCount ∧ f = m.piece i := by
  have hi : i < m.fragmentCount := by
    obtain ⟨w, hw, -⟩ := Result.bind_eq_ok.mp h
    unfold writeFragmentPayload at hw
    simp only [Result.guard_eq_ok] at hw
    exact UInt16.not_le.mp hw.2.2.2.2.1
  rw [transmit_eq hm hi, Except.ok.injEq] at h
  exact ⟨hi, h.symm⟩

end FragmentedMessage

namespace FragmentReassembler

variable {r : FragmentReassembler} {m : FragmentedMessage} {cfg : FragmentationConfig}

/-- The states of a reassembler that starts empty and receives pieces of one message, in any
order and any number of times, with timeouts in between. -/
inductive Gathers (cfg : FragmentationConfig) (m : FragmentedMessage) :
    FragmentReassembler → Prop
  | empty (r : FragmentReassembler) : Gathers cfg m (r.configure cfg)
  | arrives {r : FragmentReassembler} (h : Gathers cfg m r) {i : UInt16} {f : FragmentView}
      (hf : m.transmit i = .ok f) (now : UInt64) (s : Session) :
      Gathers cfg m (r.accept now f Session.deliverReassembledMessage s).2.1
  | expires {r : FragmentReassembler} (h : Gathers cfg m r) (now : UInt64) :
      Gathers cfg m (r.expireOld now)

/-- The only message there is. -/
def only (m : FragmentedMessage) (id : UInt64) : Option FragmentedMessage :=
  if id = m.messageId then some m else none

theorem Gathers.spec (h : Gathers cfg m r) (hm : m.Sendable) :
    r.cfg = cfg ∧ r.Accounted ∧ Consistent (only m) r := by
  induction h with
  | empty r => exact ⟨rfl, accounted_configure cfg r, consistent_empty _ cfg⟩
  | @arrives r _ i f hf now s ih =>
    obtain ⟨hcfg, hacc, hcons⟩ := ih
    obtain ⟨hi, rfl⟩ := FragmentedMessage.transmit_eq_ok hm hf
    obtain ⟨-, hcons', hcfg'⟩ := accept_piece hcons (if_pos rfl) hm hi now
      Session.deliverReassembledMessage s
    exact ⟨hcfg'.trans hcfg, (hacc.accept now _ _ s).1, hcons'⟩
  | expires _ now ih =>
    obtain ⟨hcfg, hacc, hcons⟩ := ih
    exact ⟨(expireOld_cfg now _).trans hcfg, hacc.expireOld now, hcons.expireOld now⟩

theorem entries_nil (hcons : Consistent (only m) r) (hno : ¬r.contains m.messageId = true) :
    r.entries.entries = [] := by
  apply List.eq_nil_iff_forall_not_mem.mpr
  rintro ⟨id, e⟩ hmem
  have hlookup : r.entries.lookup id = some e := AList.mem_lookup_iff.mpr hmem
  obtain ⟨m', hm', -⟩ := hcons id e hlookup
  have hid : id = m.messageId := by
    by_contra hne
    rw [only, if_neg hne] at hm'
    cases hm'
  apply hno
  rw [contains, ← hid, hlookup]
  rfl

theorem Gathers.admits (h : Gathers cfg m r) (hm : m.Sendable) (hcfg : cfg.Sound)
    (hen : cfg.enabled = true) (hlen : m.payload.length ≤ cfg.maxReassembledMessageBytes.toNat) :
    r.Admits m := by
  obtain ⟨hrcfg, hacc, hcons⟩ := h.spec hm
  have horig := hm.originalLength_toNat
  rw [Admits, HasRoom, hrcfg]
  refine ⟨hen, ?_, horig.trans_le hlen, ?_⟩
  · rw [UInt16.le_iff_toNat_le, hm.fragmentCount_toNat]
    refine le_trans ?_ hcfg.fragments
    omega
  · by_cases hcont : r.contains m.messageId = true
    · exact Or.inl hcont
    · have hnil := entries_nil hcons hcont
      have hzero : r.memoryBytes = 0 := by
        apply UInt64.toNat_inj.mp
        rw [hacc.memory, bytes, TableSum.total, hnil]
        rfl
      refine Or.inr ⟨by rw [hnil]; exact hcfg.concurrent, ?_⟩
      rw [hzero, UInt64.zero_add, UInt64.le_iff_toNat_le, UInt16.toNat_toUInt64, horig]
      exact hlen.trans hcfg.memory

/-- A message handed over is refused as malformed only. -/
theorem deliverReassembledMessage_code (m : FragmentedMessage) (s : Session) :
    FailsWith (fun code => code = .badPacket) (s.deliverReassembledMessage m).1 := by
  have hordered : ∀ (w : OrderedReceiveWindow) (seq : UInt64) (t : UInt8) (d : Bytes),
      FailsWith (fun code => code = .badPacket ∨ code = .queueFull) (w.accept seq t d).1 := by
    intro w seq t d
    unfold OrderedReceiveWindow.accept
    dsimp only
    split_ifs
    · exact failsWith_fail (Or.inl rfl) _
    all_goals first | exact failsWith_ok _ | exact failsWith_fail (Or.inr rfl) _
  unfold Session.deliverReassembledMessage Session.deliverApplicationMessage
  split_ifs with hch
  · rcases hacc : (s.log (.reassembled m)).ordered.accept m.deliverySequence m.type m.payload with
      ⟨_ | _, w⟩
    · dsimp only
      split_ifs with hfull
      · exact failsWith_ok _
      · intro e he
        cases he
        exact (hordered _ _ _ _ _ (congrArg Prod.fst hacc)).resolve_right hfull
    · exact failsWith_ok _
  · exact failsWith_ok _
  · exact failsWith_ok _

/-- With the sender's policy and room for one message, no piece of it is too large or one too
many. -/
theorem Gathers.answer (h : Gathers cfg m r) (hm : m.Sendable) (hcfg : cfg.Sound)
    (hen : cfg.enabled = true) (hlen : m.payload.length ≤ cfg.maxReassembledMessageBytes.toNat)
    {i : UInt16} {f : FragmentView} (hf : m.transmit i = .ok f) (now : UInt64) (s : Session) :
    FailsWith (fun code => code = .badPacket)
      (r.accept now f Session.deliverReassembledMessage s).1 := by
  obtain ⟨hi, rfl⟩ := FragmentedMessage.transmit_eq_ok hm hf
  obtain ⟨-, -, hcons⟩ := h.spec hm
  have hpiece := (accept_piece hcons (if_pos rfl) hm hi now
    Session.deliverReassembledMessage s).1
  have hadm := h.admits hm hcfg hen hlen
  intro e he
  rw [he] at hpiece
  generalize (r.accept now (m.piece i) Session.deliverReassembledMessage s).2 = rest at hpiece
  cases hpiece with
  | refused _ _ hwhy => exact absurd hadm hwhy
  | failed _ _ s' _ _ hdone _ =>
    exact deliverReassembledMessage_code m s e (congrArg Prod.fst hdone)

end FragmentReassembler

namespace Party

variable {p : Party} {o : SendOptions} {payload : Bytes}

theorem validateClientConfig_fragmentation {config : ClientConfig}
    (h : validateClientConfig config = .ok ()) :
    validateFragmentationConfig config.fragmentation = .ok () := by
  unfold validateClientConfig at h
  obtain ⟨-, -, h⟩ := Result.bind_eq_ok.mp h
  obtain ⟨⟨⟩, hfrag, -⟩ := Result.bind_eq_ok.mp h
  exact hfrag

/-- A message within the policy of a validated configuration is allowed to be cut. -/
theorem allowsFragments_of_sound (happ : o.channel.isApplication = true)
    (hcfg : p.side.fragmentation.Sound) (hen : p.side.fragmentation.enabled = true)
    (hlen : payload.length ≤ p.side.fragmentation.maxReassembledMessageBytes.toNat)
    (hpos : 0 < payload.length) : p.AllowsFragments o payload := by
  have hwire := hcfg.wire
  have hcount : (fragmentCountForLength (UInt16.ofNat payload.length)).toNat =
      (payload.length + 1211) / 1212 := by
    rw [fragmentCountForLength_toNat, UInt16.toNat_ofNat', Nat.mod_eq_of_lt (by omega)]
  refine ⟨hen, happ, hlen, ?_, ?_⟩
  · intro h0
    rw [h0] at hcount
    change 0 = _ at hcount
    omega
  · rw [UInt16.le_iff_toNat_le, hcount]
    refine le_trans ?_ hcfg.fragments
    omega

/-- The limits of the layers agree. For a client with a validated configuration that
fragments, a message within the reassembly policy is refused for lack of room or keys only,
its datagrams have the allowed size, and a receiver with the same policy that holds nothing
else takes all its pieces. The one condition is that no number the call takes is 0. -/
theorem size_limits_agree (hC : C.IdealAead) {config : ClientConfig}
    (hcfg : validateClientConfig config = .ok ()) (hen : config.fragmentation.enabled = true)
    (hside : p.side = .client config) (happ : o.channel.isApplication = true)
    (hlen : payload.length ≤ config.fragmentation.maxReassembledMessageBytes.toNat)
    (hnum : p.HasNumbers o payload) (t : UInt8) (now : UInt64) :
    (∀ e, (p.send C o t payload now).1 = .error e →
      e.code ≠ .tooLarge ∧ e.code ≠ .invalidArg ∧ e.code ≠ .truncated) ∧
    (∀ pkt ∈ (p.send C o t payload now).2.net.pending,
      pkt ∈ p.net.pending ∨ pkt.bytes.length ≤ NetConfig.maxPacketBytes) ∧
    ∀ r, FragmentReassembler.Gathers config.fragmentation
        (p.session.fragmentedMessage o.channel t payload) r →
      ∀ i f, (p.session.fragmentedMessage o.channel t payload).transmit i = .ok f →
        ∀ now' s e, (r.accept now' f Session.deliverReassembledMessage s).1 = .error e →
          e.code ≠ .tooLarge ∧ e.code ≠ .queueFull := by
  have hsound := sound_of_validate (validateClientConfig_fragmentation hcfg) hen
  have hwire := hsound.wire
  have hfrag : p.side.fragmentation = config.fragmentation := by rw [hside]; rfl
  refine ⟨?_, ?_, ?_⟩
  · intro e he
    have hallow : o.channel.maxInlinePayloadSize < payload.length →
        p.AllowsFragments o payload := by
      intro hlarge
      apply allowsFragments_of_sound happ
      · rwa [hfrag]
      · rwa [hfrag]
      · rwa [hfrag]
      · omega
    rcases send_forRoom hC happ (by omega) hallow hnum t e he with hcode | hcode
    · rw [hcode]
      decide
    · rw [hcode]
      decide
  · obtain ⟨sent, hsend, -⟩ := send_spec (C := C) o t payload now p
    exact hsend.queuesSmall
  · intro r hr i f hf now' s e he
    have hpos : 0 < payload.length := FragmentedMessage.nonempty_of_transmit hf
    have hm : (p.session.fragmentedMessage o.channel t payload).Sendable := by
      refine ⟨hnum.fragment, ?_, hpos, Nat.lt_succ_of_le (hlen.trans hwire)⟩
      simpa [Channel.isApplication, Session.fragmentedMessage] using happ
    have hcode : e.code = .badPacket := hr.answer hm hsound hen hlen hf now' s e he
    rw [hcode]
    decide

/-- An ordered message of 1300 bytes goes out in two datagrams of the allowed size. -/
theorem size_limits_agree_two_pieces :
    let q := (establishedClient.send .standIn { channel := .reliableOrdered } 7
      (List.replicate 1300 1) 5).2
    q.net.pending.length = 2 ∧
      ∀ pkt ∈ q.net.pending, pkt.bytes.length ≤ NetConfig.maxPacketBytes := by
  have hnum : establishedClient.HasNumbers { channel := .reliableOrdered }
      (List.replicate 1300 1) := by
    refine ⟨by decide, by decide, by decide, fun _ k hk => ?_⟩
    have hcount : max 1 (fragmentCountForLength (UInt16.ofNat
        (List.replicate 1300 (1 : UInt8)).length)).toNat = 2 := by
      rw [List.length_replicate]
      rfl
    rw [hcount] at hk
    interval_cases k <;> decide
  have hagree := (size_limits_agree Crypto.standIn_idealAead validateClientConfig_default rfl rfl
    rfl (by rw [List.length_replicate]; decide) hnum 7 5).2.1
  refine ⟨by decide +kernel, fun pkt hpkt => ?_⟩
  exact (hagree pkt hpkt).resolve_left List.not_mem_nil

/-- A client whose retransmission queues hold two messages. -/
def narrowClient : Party :=
  { establishedClient with
    side := .client { reliability := { maxPendingMessages := 2 } }
    session := { establishedClient.session with
      reliable := ReliableSession.configure { maxPendingMessages := 2 } {}
      orderedReliable := ReliableSession.configure { maxPendingMessages := 2 } {} } }

/-- Two ordered messages that live for 10 ms. -/
def twoWaiting : Party :=
  let o : SendOptions := { channel := .reliableOrdered, lifetimeMs := 10 }
  ((narrowClient.send .standIn o 7 [1] 5).2.send .standIn o 7 [2] 5).2

def tryThird (p : Party) : Party := (p.send .standIn { channel := .reliableOrdered } 8 [3] 6).2

theorem tryThird_iterate (n : ℕ) {p : Party} (h : p.Full .reliableOrdered) :
    tryThird^[n] p = p.mapSession fun s => { s with
      nextOrderedSequence := s.nextOrderedSequence + UInt64.ofNat n
      trace := s.trace ++ List.replicate n (.drew .ordered) } := by
  have hdraw : tryThird^[n] p = p.mapSession Session.drawOrdered^[n] := by
    induction n generalizing p with
    | zero => rfl
    | succ n ih =>
      have hnext : (p.mapSession Session.drawOrdered).Full .reliableOrdered :=
        ⟨h.state, h.pending⟩
      rw [Function.iterate_succ_apply, tryThird, h.send_ordered rfl (by decide), ih hnext,
        Function.iterate_succ]
      rfl
  rw [hdraw, mapSession, Session.drawOrdered_iterate, mapSession]

def wornBy (n : ℕ) : Party := ((tryThird^[n] twoWaiting).pumpReliable .standIn 1000).2

theorem wornBy_eq (n : ℕ) : wornBy n = ((twoWaiting.mapSession fun s => { s with
    nextOrderedSequence := s.nextOrderedSequence + UInt64.ofNat n
    trace := s.trace ++ List.replicate n (.drew .ordered) }).pumpReliable .standIn 1000).2 := by
  have hfull : twoWaiting.Full .reliableOrdered := ⟨by decide +kernel, by decide +kernel⟩
  rw [wornBy, tryThird_iterate n hfull]

/-- Once the next sequence number is 0, a short message is refused as an invalid argument,
although the queues have room. -/
theorem wornBy_refuses :
    validateClientConfig { reliability := { maxPendingMessages := 2 } } = .ok () ∧
      (wornBy (2 ^ 64 - 3)).side = .client { reliability := { maxPendingMessages := 2 } } ∧
      (wornBy (2 ^ 64 - 3)).session.state = .established ∧
      (wornBy (2 ^ 64 - 3)).Takes .reliableOrdered [9] ∧
      ((wornBy (2 ^ 64 - 3)).send .standIn { channel := .reliableOrdered } 8 [3] 1001).1 =
        fail .invalidArg "ordered sequence must be non-zero" := by
  rw [wornBy_eq]
  decide +kernel

end Party

end SecureCnet
