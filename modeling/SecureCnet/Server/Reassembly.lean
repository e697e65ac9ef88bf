import SecureCnet.Delivery.Accounting
import SecureCnet.Server.Callbacks
import SecureCnet.Session.Deliver
import SecureCnet.Session.Silent

/-!
# Reassembly memory of a server

A session looks at the memory of all sessions before it opens an entry for a message.
The sum stays within the limit of the server, as long as it does not wrap around: it
has 64 bits, and a limit that close to the end of them cannot be checked by a sum.
-/

namespace SecureCnet

open TableSum

namespace Party

variable {C : Crypto} {p p' p'' : Party} {config : ServerConfig}

/-- The length of a message can be added to the memory of all sessions: the limit leaves room for
it, or the other sessions hold less than half of the address space. -/
def Roomy (config : ServerConfig) (other : UInt64) : Prop :=
  config.abuse.maxTotalReassemblyMemoryServer.toNat + 2 ^ 16 ≤ 2 ^ 64 ∨ other.toNat < 2 ^ 63

/-- The reassembler keeps its books, and takes no more than the server has left. -/
structure Stores (p p' : Party) : Prop where
  side : p'.side = p.side
  otherMemory : p'.otherMemory = p.otherMemory
  books : p.session.reassembler.Accounted → p'.session.reassembler.Accounted ∧
    p'.session.reassembler.cfg = p.session.reassembler.cfg
  quota : ∀ config, p.side = .server config → Roomy config p.otherMemory →
    p.session.reassembler.Accounted →
    p.otherMemory.toNat + p.session.reassembler.bytes ≤
      config.abuse.maxTotalReassemblyMemoryServer.toNat →
    p.otherMemory.toNat + p'.session.reassembler.bytes ≤
      config.abuse.maxTotalReassemblyMemoryServer.toNat

theorem stores_of_eq (hside : p'.side = p.side) (hother : p'.otherMemory = p.otherMemory)
    (hr : p'.session.reassembler = p.session.reassembler) : p.Stores p' :=
  ⟨hside, hother, fun h => ⟨hr ▸ h, by rw [hr]⟩, fun _ _ _ _ h => hr ▸ h⟩

theorem Stores.refl (p : Party) : p.Stores p := stores_of_eq rfl rfl rfl

theorem Stores.trans (h : p.Stores p') (h' : p'.Stores p'') : p.Stores p'' where
  side := h'.side.trans h.side
  otherMemory := h'.otherMemory.trans h.otherMemory
  books hacc := by
    obtain ⟨hacc', hcfg⟩ := h.books hacc
    obtain ⟨hacc'', hcfg'⟩ := h'.books hacc'
    exact ⟨hacc'', hcfg'.trans hcfg⟩
  quota config hside hroom hacc hle := by
    have hmid := h.quota config hside hroom hacc hle
    rw [← h.otherMemory] at hroom hmid ⊢
    exact h'.quota config (h.side.trans hside) hroom (h.books hacc).1 hmid

/-- A piece the server-wide quota lets pass costs no more than is left. -/
theorem charge_le {f : FragmentView} (hside : p.side = .server config)
    (hroom : Roomy config p.otherMemory) (hacc : p.session.reassembler.Accounted)
    (hle : p.otherMemory.toNat + p.session.reassembler.bytes ≤
      config.abuse.maxTotalReassemblyMemoryServer.toNat)
    (hpass : p.overServerQuota f = false) :
    p.otherMemory.toNat + (p.session.reassembler.bytes + p.session.reassembler.charge f) ≤
      config.abuse.maxTotalReassemblyMemoryServer.toNat := by
  unfold overServerQuota at hpass
  rw [hside] at hpass
  unfold FragmentReassembler.charge
  cases hc : p.session.reassembler.contains f.messageId with
  | true => simpa using hle
  | false =>
    simp only [hc, Bool.not_false, Bool.true_and, decide_eq_false_iff_not] at hpass
    have hsmall := hacc.bytes_add_lt f.originalLength
    have hlen := f.originalLength.toNat_lt
    have hmax := config.abuse.maxTotalReassemblyMemoryServer.toNat_lt
    -- Nothing wraps, so the sum the code compares is the real one.
    have hsum : (p.otherMemory + p.session.reassembler.memoryBytes +
        f.originalLength.toUInt64).toNat =
        p.otherMemory.toNat + p.session.reassembler.bytes + f.originalLength.toNat := by
      rw [UInt64.toNat_add, UInt64.toNat_add, hacc.memory]
      rcases hroom with hroom | hroom <;> simp <;> omega
    have hcheck := UInt64.le_iff_toNat_le.mp (UInt64.not_lt.mp hpass)
    rw [hsum] at hcheck
    simp only [Bool.false_eq_true, if_false]
    omega

theorem handleFragmentPayload_stores (now : UInt64) (f : FragmentView) (p : Party) :
    p.Stores (p.handleFragmentPayload now f).2 := by
  unfold handleFragmentPayload
  split_ifs with hover
  · exact .refl p
  have haccept : ∀ s : Session, p.Stores { p with session := { s with
      reassembler := (p.session.reassembler.accept now f Session.deliverReassembledMessage
        p.session).2.1 } } := by
    intro s
    refine ⟨rfl, rfl, fun hacc => ?_, fun config hside hroom hacc hle => ?_⟩
    · obtain ⟨hacc', hcfg, -⟩ := hacc.accept now f Session.deliverReassembledMessage p.session
      exact ⟨hacc', hcfg⟩
    · obtain ⟨-, -, hbytes⟩ := hacc.accept now f Session.deliverReassembledMessage p.session
      have hcharge := charge_le hside hroom hacc hle (Bool.eq_false_iff.mpr hover)
      exact (Nat.add_le_add_left hbytes _).trans hcharge
  cases hr : p.session.reassembler.accept now f Session.deliverReassembledMessage p.session with
  | mk rc rest =>
    obtain ⟨r, s⟩ := rest
    have hs := haccept s
    rw [hr] at hs
    cases rc <;> exact hs

theorem stores_mapSession {f : Session → Session}
    (h : (f p.session).reassembler = p.session.reassembler) : p.Stores (p.mapSession f) :=
  stores_of_eq rfl rfl h

theorem closeSession_stores (now : UInt64) (reason : CloseReason) (p : Party) :
    p.Stores (p.closeSession C now reason) := by
  obtain ⟨n, st, es, net, h, -⟩ := closeSession_eq (C := C) now reason p
  rw [h]
  exact stores_of_eq rfl rfl rfl

theorem transitionState_reassembler (next : ConnectionState) (s : Session) :
    (Session.transitionState next s).reassembler = s.reassembler := by
  unfold Session.transitionState
  split_ifs <;> rfl

theorem cleared_stores (hside : ∃ config, p.side = .client config) (hs : p'.side = p.side)
    (hother : p'.otherMemory = p.otherMemory)
    (hcleared : p'.session.reassembler = p.session.reassembler.clear) : p.Stores p' := by
  obtain ⟨config, hclient⟩ := hside
  refine ⟨hs, hother, fun _ => ?_, fun config' h => ?_⟩
  · rw [hcleared]
    exact ⟨FragmentReassembler.accounted_configure p.session.reassembler.cfg {}, rfl⟩
  · rw [hclient] at h
    cases h

theorem stores_closing (C : Crypto) : ClosingRule C Stores where
  refl := .refl
  trans := .trans
  fails _ hside := cleared_stores hside rfl rfl (transitionState_reassembler _ _)
  closes now reason _ := closeSession_stores now reason _

/-! ### Receiving -/

theorem dispatchAck_stores (now : UInt64) (data : Bytes) (p : Party) :
    p.Stores (p.dispatchAck C now data) := by
  unfold dispatchAck
  split
  · exact (stores_closing C).violation ..
  · dsimp only
    split_ifs <;> exact stores_of_eq rfl rfl (by simp [log])

theorem deliver_stores (ch : Channel) (t : UInt8) (d : Bytes) (seq : UInt64) (p : Party) :
    p.Stores (p.onSession (Session.deliverApplicationMessage ch t d seq)).2 := by
  obtain ⟨ordered, sequenced, es, h, -⟩ := deliver_shape ch t d seq p
  rw [h]
  exact stores_of_eq rfl rfl rfl

theorem acknowledges_stores (ch : Channel) (id : UInt64) (p : Party) :
    p.Stores (p.queueControlAck C ch id).2 := by
  obtain ⟨n, es, net, h, -⟩ := queueControlAck_upToNumber (C := C) ch id p
  rw [h]
  exact stores_of_eq rfl rfl rfl

theorem accepts_stores (ch : Channel) (id : UInt64) (p : Party) :
    p.Stores (p.acceptIncoming ch id).2 := by
  unfold acceptIncoming
  dsimp only
  split_ifs <;> exact stores_of_eq rfl rfl (by simp [log])

theorem authenticate_stores (now : UInt64) (packet : PacketView) (p : Party) :
    p.Stores (p.authenticate C now packet).2 := by
  unfold authenticate
  split
  · exact .refl p
  · split_ifs
    · exact .refl p
    · dsimp only
      split_ifs <;> exact stores_of_eq rfl rfl rfl

theorem stores_receiving (C : Crypto) : ReceivingRule C (fun _ _ _ => True) Stores where
  toClosingRule := stores_closing C
  remoteCloses _ _ := stores_of_eq rfl rfl (transitionState_reassembler _ _)
  passes _ _ _ _ _ := stores_of_eq rfl rfl rfl
  shows _ _ := stores_of_eq rfl rfl rfl
  delivers := deliver_stores
  reassembles := handleFragmentPayload_stores
  acknowledged now data p _ := dispatchAck_stores now data p
  acknowledges := acknowledges_stores
  accepts := accepts_stores
  authenticates := authenticate_stores
  establishes _ := stores_mapSession (transitionState_reassembler _ _)
  ends _ _ := stores_mapSession (transitionState_reassembler _ _)

/-! ### Calls -/

theorem Silent.reassembler_eq (h : p.Silent p') (hside : p.side = .server config) :
    p'.session.reassembler = p.session.reassembler := by
  rcases h.inbox with ⟨⟨config', hdead⟩, -⟩ | hbox
  · rw [h.side, hside] at hdead
    cases hdead
  · exact hbox.reassembler

/-- Calls that bring no packet open no entry. -/
theorem call_reassembler (hside : p.side = .server config) {k : Call}
    (hk : ∀ now packet, k ≠ .packet now packet) :
    (p.call C k).session.reassembler = p.session.reassembler ∨
      ∃ now, (p.call C k).session.reassembler = p.session.reassembler.expireOld now := by
  cases k with
  | packet now packet => exact absurd rfl (hk now packet)
  | close now reason => exact Or.inl (closeSession_sameInbox now reason p).reassembler
  | pumpReliable now => exact Or.inl ((pumpReliable_silent now p).reassembler_eq hside)
  | housekeep now => exact Or.inr ⟨now, (runHousekeeping_silent now p).reassembler_eq hside⟩
  | send options type payload now =>
    obtain ⟨sent, hsent, -⟩ := send_spec (C := C) options type payload now p
    exact Or.inl (hsent.silent.reassembler_eq hside)
  | sendPayload data => exact Or.inl ((sendPayload_silent data p).reassembler_eq hside)
  | flush now i socket => exact Or.inl ((flushAt_silent now i socket p).reassembler_eq hside)

theorem call_bytes_le (hside : p.side = .server config) {k : Call}
    (hk : ∀ now packet, k ≠ .packet now packet) :
    (p.call C k).session.reassembler.bytes ≤ p.session.reassembler.bytes := by
  rcases call_reassembler (C := C) hside hk with h | ⟨now, h⟩
  · rw [h]
  · rw [h]
    exact FragmentReassembler.bytes_expireOld_le now _

theorem call_stores (hside : p.side = .server config) (k : Call) : p.Stores (p.call C k) := by
  by_cases hk : ∃ now packet, k = .packet now packet
  · obtain ⟨now, packet, rfl⟩ := hk
    exact (stores_receiving C).receivePacket now packet p fun _ _ _ => Or.inl fun _ _ => trivial
  · have hnot : ∀ now packet, k ≠ .packet now packet := fun now packet h => hk ⟨now, packet, h⟩
    have hfollows := p.call_follows (C := C) ⟨config, hside⟩ k
    have hle := call_bytes_le (C := C) hside hnot
    refine ⟨hfollows.side, hfollows.otherMemory, fun hacc => ?_, fun _ _ _ _ h => ?_⟩
    · rcases call_reassembler (C := C) hside hnot with h | ⟨now, h⟩
      · rw [h]
        exact ⟨hacc, rfl⟩
      · rw [h]
        exact ⟨hacc.expireOld now, FragmentReassembler.expireOld_cfg now _⟩
    · exact (Nat.add_le_add_left hle _).trans h

end Party

namespace Server

variable {C : Crypto} {N : InetNtop} {a : Act} {srv srv' : Server} {connId : UInt64}
  {ps : PeerSession} {config : ServerConfig}

/-! ### The sessions of a server -/

/-- The memory the reassemblers of the sessions count. -/
def reassemblyBytes (sessions : AList fun _ : UInt64 => PeerSession) : ℕ :=
  total (fun ps => ps.session.reassembler.memoryBytes.toNat) sessions

theorem admission_reassembler (source : Endpoint) (hello : ClientHello) (resumed : Bool)
    (now : UInt64) (draws : Draws) (keys : SessionKeys) (srv : Server) :
    (srv.admission C source hello resumed now draws keys).peer.session.reassembler =
      FragmentReassembler.configure srv.config.fragmentation {} :=
  Party.transitionState_reassembler _ _

/-- Every session keeps its books under the configuration of the server. -/
theorem books_acts (config : ServerConfig) (l : List Act)
    (hps : (({ config } : Server).acts C N l).sessions.lookup connId = some ps) :
    ps.session.reassembler.Accounted ∧ ps.session.reassembler.cfg = config.fragmentation := by
  refine lookup_acts_induction (C := C) (N := N) (P := fun ps =>
    ps.session.reassembler.Accounted ∧ ps.session.reassembler.cfg = config.fragmentation) ?_ ?_ l hps
  · intro srv source hello resumed now draws keys hconfig
    rw [admission_reassembler, hconfig]
    exact ⟨FragmentReassembler.accounted_configure _ _, rfl⟩
  · intro p ps k hside hsession hbooks
    rw [← hsession] at hbooks
    obtain ⟨hacc, hcfg⟩ := (Party.call_stores (C := C) hside k).books hbooks.1
    exact ⟨hacc, hcfg.trans hbooks.2⟩

theorem toNat_sum (l : List UInt64) : l.sum.toNat = (l.map UInt64.toNat).sum % 2 ^ 64 := by
  induction l with
  | nil => rfl
  | cons x l ih =>
    rw [List.sum_cons, UInt64.toNat_add, ih, List.map_cons, List.sum_cons]
    simp

theorem toNat_otherMemory (h : reassemblyBytes (srv.sessions.erase connId) < 2 ^ 64) :
    (srv.otherMemory connId).toNat = reassemblyBytes (srv.sessions.erase connId) := by
  unfold otherMemory
  rw [toNat_sum, List.map_map]
  exact Nat.mod_eq_of_lt h

/-- The session a datagram is for. -/
def Act.addressee : Act → UInt64
  | .receive _ datagram _ _ =>
    match parsePacket datagram with
    | .ok packet => packet.h.connId
    | .error _ => 0
  | _ => 0

/-- Sessions an act brings no packet for do not grow. -/
theorem Indexed.memory_act_le (hidx : srv.Indexed)
    (hbooks : ∀ connId ps, srv.sessions.lookup connId = some ps → ps.session.reassembler.Accounted)
    (hne : connId ≠ a.addressee) {ps' : PeerSession}
    (hps' : (srv.act C N a).sessions.lookup connId = some ps') :
    ps'.session.reassembler.memoryBytes.toNat = 0 ∨ ∃ ps, srv.sessions.lookup connId = some ps ∧
      ps'.session.reassembler.memoryBytes.toNat ≤ ps.session.reassembler.memoryBytes.toNat := by
  cases hidx.fate (C := C) (N := N) a connId with
  | kept h => exact Or.inr ⟨ps', h ▸ hps', le_rfl⟩
  | dropped _ _ _ hgone => cases hps'.symm.trans hgone
  | admitted srv₁ source hello resumed now draws keys _ _ _ _ hnew =>
    obtain rfl := Option.some.inj (hps'.symm.trans hnew)
    rw [admission_reassembler]
    exact Or.inl rfl
  | called ps p k hps hcall hp hnew =>
    obtain rfl := Option.some.inj (hps'.symm.trans hnew)
    have hk : ∀ now packet, k ≠ .packet now packet := by
      rintro now packet rfl
      cases hcall with
      | packet hparse _ => exact hne (by simp [Act.addressee, hparse])
    have hacc : p.session.reassembler.Accounted := hp.session ▸ hbooks connId ps hps
    refine Or.inr ⟨ps, hps, ?_⟩
    rw [← hp.session, hacc.memory]
    exact ((Party.call_stores (C := C) hp.side k).books hacc).1.memory.trans_le
      (Party.call_bytes_le hp.side hk)

/-- One act keeps the memory within the limit. -/
theorem Indexed.reassemblyBytes_act_le (hidx : srv.Indexed)
    (hbooks : ∀ connId ps, srv.sessions.lookup connId = some ps → ps.session.reassembler.Accounted)
    (hroom : srv.config.abuse.maxTotalReassemblyMemoryServer.toNat + 2 ^ 16 ≤ 2 ^ 64 ∨
      reassemblyBytes srv.sessions < 2 ^ 63)
    (hle : reassemblyBytes srv.sessions ≤ srv.config.abuse.maxTotalReassemblyMemoryServer.toNat) :
    reassemblyBytes (srv.act C N a).sessions ≤
      srv.config.abuse.maxTotalReassemblyMemoryServer.toNat := by
  have hfewer : reassemblyBytes (srv.sessions.erase a.addressee) ≤ reassemblyBytes srv.sessions :=
    total_erase_le _ _ _
  have hothers : reassemblyBytes ((srv.act C N a).sessions.erase a.addressee) ≤
      reassemblyBytes (srv.sessions.erase a.addressee) := by
    refine total_le_of_lookup fun connId ps' hps' => ?_
    have hne : connId ≠ a.addressee := by
      rintro rfl
      rw [AList.lookup_erase] at hps'
      cases hps'
    rw [AList.lookup_erase_ne hne] at hps' ⊢
    exact hidx.memory_act_le hbooks hne hps'
  cases hps' : (srv.act C N a).sessions.lookup a.addressee with
  | none =>
    rw [erase_of_lookup_none hps'] at hothers
    exact hothers.trans (hfewer.trans hle)
  | some ps' =>
    have hsum : reassemblyBytes (srv.act C N a).sessions = _ := total_eq_erase_add hps'
    rw [hsum]
    refine (Nat.add_le_add_right hothers _).trans ?_
    cases hidx.fate (C := C) (N := N) a a.addressee with
    | kept h =>
      have hold : reassemblyBytes srv.sessions = _ := total_eq_erase_add (h ▸ hps')
      exact hold.symm.trans_le hle
    | dropped _ _ _ hgone => cases hps'.symm.trans hgone
    | admitted srv₁ source hello resumed now draws keys _ _ _ _ hnew =>
      obtain rfl := Option.some.inj (hps'.symm.trans hnew)
      rw [admission_reassembler]
      exact hfewer.trans hle
    | called ps p k hps hcall hp hnew =>
      obtain rfl := Option.some.inj (hps'.symm.trans hnew)
      have hstores := Party.call_stores (C := C) hp.side k
      have hacc : p.session.reassembler.Accounted := hp.session ▸ hbooks _ ps hps
      have hold : reassemblyBytes srv.sessions = _ := total_eq_erase_add hps
      have hmax := srv.config.abuse.maxTotalReassemblyMemoryServer.toNat_lt
      have hother : p.otherMemory.toNat = reassemblyBytes (srv.sessions.erase a.addressee) := by
        rw [hp.otherMemory]
        exact toNat_otherMemory (by omega)
      have hquota := hstores.quota srv.config hp.side (hroom.imp_right (by omega)) hacc (by
        rw [hother, ← hacc.memory, hp.session]
        exact hold.symm.trans_le hle)
      rw [hother, ← (hstores.books hacc).1.memory] at hquota
      exact hquota

/-- Reassembly is accounted for in every state of every run. Each session keeps exact books within
the limits per peer; the sum of all of them is within the limit of the server, provided that the
limit leaves room for one message in 64 bits, or that the buffers of all sessions, which are
really allocated, never fill half of the address space. -/
theorem reassembly_accounted (config : ServerConfig) (l : List Act) :
    (∀ connId ps, (({ config } : Server).acts C N l).sessions.lookup connId = some ps →
      ps.session.reassembler.Accounted ∧ ps.session.reassembler.cfg = config.fragmentation) ∧
    (config.abuse.maxTotalReassemblyMemoryServer.toNat + 2 ^ 16 ≤ 2 ^ 64 ∨
        (∀ before, before <+: l →
          reassemblyBytes (({ config } : Server).acts C N before).sessions < 2 ^ 63) →
      reassemblyBytes (({ config } : Server).acts C N l).sessions ≤
        config.abuse.maxTotalReassemblyMemoryServer.toNat) := by
  refine ⟨fun connId ps hps => books_acts config l hps, fun hroom => ?_⟩
  induction l using List.reverseRecOn with
  | nil => exact Nat.zero_le _
  | append_singleton l a ih =>
    have hearlier : ∀ before, before <+: l → before <+: l ++ [a] :=
      fun before h => h.trans (List.prefix_append l [a])
    have hle := ih (hroom.imp_right fun h before hb => h before (hearlier before hb))
    have hbooks : ∀ connId ps, (({ config } : Server).acts C N l).sessions.lookup connId = some ps →
        ps.session.reassembler.Accounted := fun connId ps hps => (books_acts config l hps).1
    have hidx : (({ config } : Server).acts C N l).Indexed := indexed_acts config l
    have hconfig : (({ config } : Server).acts C N l).config = config := acts_config l _
    replace hroom := hroom.imp_right fun h => h l (List.prefix_append l [a])
    rw [acts_append, acts_cons, acts_nil]
    generalize ({ config } : Server).acts C N l = srv at hle hbooks hidx hconfig hroom
    rw [← hconfig] at hroom hle ⊢
    exact hidx.reassemblyBytes_act_le hbooks hroom hle

/-- The second and last piece of a message of 1215 bytes has come in. -/
def reassembling : List Act :=
  announced ++ [.receive loopback (sessionDatagram .message 2 (MsgView.encode ⟨.control,
    ControlType.fragment.code, FragmentView.encode ⟨9, 0, .unreliable, 5, 1, 2, 1215, [1, 2, 3]⟩⟩))
    1300 {}]

/-- The session holds a buffer for the whole of it, and the server has room. -/
theorem piece_accounted :
    reassemblyBytes (({} : Server).acts .checksum .standard reassembling).sessions = 1215 ∧
      reassemblyBytes (({} : Server).acts .checksum .standard reassembling).sessions ≤
        ({} : ServerConfig).abuse.maxTotalReassemblyMemoryServer.toNat :=
  ⟨by decide +kernel, (reassembly_accounted {} reassembling).2 (Or.inl (by decide))⟩

end Server

end SecureCnet
