import SecureCnet.World.Model

/-!
# Where handshake packets come from

An unencrypted handshake packet that somebody sent is a hello if a client sent it, and
a retry or the hello of an admitted session if the server did. The keys and the public
key of an admitted session come from one key exchange with the client key of its hello.
-/

namespace SecureCnet

/-! ### The server's side -/

/-- Public key and keys of the session are those of one exchange with the hello it keeps. -/
structure Admission.Genuine (C : Crypto) (a : Admission) : Prop where
  hello : a.peer.clientHello = a.hello
  exchange : ∃ seed, a.peer.session.ephemeral.publicKey = (C.kxKeypair seed).publicKey ∧
    C.kxServer (C.kxKeypair seed) a.hello.clientPublicKey = some a.peer.session.keys

namespace Server

variable {C : Crypto} {N : InetNtop} {H : Endpoint → ClientHello → UInt64 → Prop}
  {srv srv' : Server}

/-- If the datagram is an unencrypted handshake packet, it is an answer. -/
def Speaks (C : Crypto) (srv : Server) (datagram : Bytes) : Prop :=
  ∀ payload, plainHandshake datagram = some payload → srv.Answers C payload

/-- Handshake packets, queued or sent, are answers, and admissions are genuine. -/
structure Candid (C : Crypto) (srv : Server) : Prop where
  queue : ∀ q ∈ srv.net.pending, srv.Speaks C q.bytes
  sent : ∀ d ∈ srv.sentDatagrams, srv.Speaks C d
  admitted : ∀ a, ServerEvent.admitted a ∈ srv.history → a.Genuine C

theorem Answers.mono {payload : Bytes} (h : srv.Answers C payload)
    (hh : srv.history ⊆ srv'.history) : srv'.Answers C payload := by
  refine h.imp id ?_
  rintro ⟨a, hello, hmem, hmade⟩
  exact ⟨a, hello, hh hmem, hmade⟩

theorem Speaks.mono {d : Bytes} (h : srv.Speaks C d) (hh : srv.history ⊆ srv'.history) :
    srv'.Speaks C d :=
  fun payload hp => (h payload hp).mono hh

theorem mem_sentDatagrams {d : Bytes} :
    d ∈ srv.sentDatagrams ↔ ∃ pkt, ServerEvent.sent pkt ∈ srv.history ∧ pkt.bytes = d := by
  unfold sentDatagrams
  rw [List.mem_filterMap]
  constructor
  · rintro ⟨e, he, hd⟩
    cases e with
    | sent pkt => exact ⟨pkt, he, Option.some.inj hd⟩
    | _ => cases hd
  · rintro ⟨pkt, hpkt, rfl⟩
    exact ⟨_, hpkt, rfl⟩

/-- How a change may extend queue and history. -/
theorem Candid.extend (h : srv.Candid C) (es : List ServerEvent)
    (hh : srv'.history = srv.history ++ es)
    (hq : ∀ q ∈ srv'.net.pending, q ∈ srv.net.pending ∨ srv.Speaks C q.bytes)
    (hs : ∀ pkt, ServerEvent.sent pkt ∈ es → pkt ∈ srv.net.pending)
    (ha : ∀ a, ServerEvent.admitted a ∈ es → a.Genuine C) : srv'.Candid C := by
  have hsub : srv.history ⊆ srv'.history := by
    rw [hh]
    exact List.subset_append_left _ _
  refine ⟨?_, ?_, ?_⟩
  · intro q hmem
    rcases hq q hmem with hold | hnew
    · exact (h.queue q hold).mono hsub
    · exact hnew.mono hsub
  · intro d hd
    obtain ⟨pkt, hpkt, rfl⟩ := mem_sentDatagrams.mp hd
    rw [hh] at hpkt
    rcases List.mem_append.mp hpkt with hold | hnew
    · exact (h.sent _ (mem_sentDatagrams.mpr ⟨pkt, hold, rfl⟩)).mono hsub
    · exact (h.queue pkt (hs pkt hnew)).mono hsub
  · intro a hmem
    rw [hh] at hmem
    rcases List.mem_append.mp hmem with hold | hnew
    · exact h.admitted a hold
    · exact ha a hnew

theorem Candid.quiet (h : srv.Candid C) (es : List ServerEvent)
    (hh : srv'.history = srv.history ++ es) (hq : srv'.net.pending ⊆ srv.net.pending)
    (hs : ∀ pkt, ServerEvent.sent pkt ∉ es) (ha : ∀ a, ServerEvent.admitted a ∉ es) :
    srv'.Candid C :=
  h.extend es hh (fun _ hmem => Or.inl (hq hmem)) (fun pkt hpkt => absurd hpkt (hs pkt))
    fun a hmem => absurd hmem (ha a)

theorem mem_queuePlain {now : UInt64} {dest : Endpoint} {kind : PacketKind} {payload : Bytes}
    {connId owner : UInt64} {q : PendingPacket}
    (h : q ∈ (srv.queuePlain C now dest kind payload connId owner).2.net.pending) :
    q ∈ srv.net.pending ∨
      plainHandshake q.bytes = if kind = .handshake then some payload else none := by
  unfold queuePlain Transport.queuePlainPacket at h
  dsimp only at h
  split_ifs at h
  · exact Or.inl h
  · exact Or.inl h
  · exact (Party.mem_sealAndEnqueue h).imp id plainHandshake_plain

theorem removeAt_subset (i len : ℕ) (net : Transport) :
    (net.removeAt i len).pending ⊆ net.pending :=
  fun _ hq => List.mem_of_mem_eraseIdx hq

/-- A visit of the flush loop sends at most the packet it visits. -/
theorem Visited.candid {now : UInt64} {i : ℕ} {pkt : PendingPacket} (h : srv.Candid C)
    (hpkt : srv.net.pending[i]? = some pkt) (hv : srv.Visited now i pkt srv') : srv'.Candid C := by
  have hmem : pkt ∈ srv.net.pending := List.mem_of_getElem? hpkt
  have hsent : ∀ q, ServerEvent.sent q ∈ [ServerEvent.sent pkt] → q ∈ srv.net.pending := by
    intro q hq
    cases List.mem_singleton.mp hq
    exact hmem
  cases hv with
  | refused => exact h
  | sent howner =>
    exact h.extend [.sent pkt] rfl
      (fun q hq => Or.inl (removeAt_subset i pkt.bytes.length _ hq)) hsent (by simp)
  | dropped howner hnone =>
    exact h.quiet [] (by simp) (removeAt_subset _ _ _) (by simp) (by simp)
  | left ps p socket bytes howner hps hflush =>
    obtain ⟨budget, lastSendMs, net, hshape, -, hsub⟩ :=
      Party.flushAt_shape now i socket (srv.party pkt.ownerConnId ps)
    rw [hflush] at hshape
    obtain rfl : p = _ := hshape
    exact h.extend [.sent pkt] rfl (fun q hq => Or.inl (hsub hq)) hsent (by simp)
  | stayed ps p socket howner hps hflush =>
    obtain ⟨budget, lastSendMs, net, hshape, -, hsub⟩ :=
      Party.flushAt_shape now i socket (srv.party pkt.ownerConnId ps)
    rw [hflush] at hshape
    obtain rfl : p = _ := hshape
    exact h.quiet [] (by simp [store]) hsub (by simp) (by simp)

/-- The hello a session keeps is the one it was admitted for. -/
theorem admission_genuine {source : Endpoint} {hello : ClientHello} {resumed : Bool}
    {now : UInt64} {draws : Draws} {keys : SessionKeys} {srv₀ : Server}
    (htoken : srv₀.Admits C N source hello now resumed)
    (hkeys : C.kxServer (C.kxKeypair draws.seed) hello.clientPublicKey = some keys) :
    (srv.admission C source hello resumed now draws keys).Genuine C := by
  have hpeer : (srv.admission C source hello resumed now draws keys).peer =
      keyedSession (C.kxKeypair draws.seed) keys (newPeerSession source
        (srv.allocateConnId draws.connIds) srv.nextPeerId hello resumed now draws.serverNonce
        srv.config) := rfl
  refine ⟨?_, draws.seed, ?_, ?_⟩
  · rw [hpeer]
    unfold Admits at htoken
    cases resumed with
    | true =>
      obtain ⟨-, hnone, -⟩ := htoken
      obtain ⟨key, nonce, retry, resumption⟩ := hello
      obtain rfl : retry = none := hnone
      rfl
    | false =>
      obtain ⟨hnone, -⟩ := htoken
      obtain ⟨key, nonce, retry, resumption⟩ := hello
      obtain rfl : resumption = none := hnone
      rfl
  · rw [hpeer, keyedSession, Session.transitionState_ephemeral]
  · rw [hpeer, keyedSession, Session.transitionState_keys]
    exact hkeys

theorem Change.candid (h : srv.Candid C) (hc : Change C N H srv srv') : srv'.Candid C := by
  cases hc with
  | hosts hn =>
    obtain ⟨_, _, rfl⟩ := hn
    exact h.quiet [] (by simp) (List.Subset.refl _) (by simp) (by simp)
  | counted endpoint bytes now =>
    exact h.quiet [_] rfl (List.Subset.refl _) (by simp) (by simp)
  | plain now dest kind payload connId owner ho hp =>
    refine h.extend [] (by simp [queuePlain]) ?_ (by simp) (by simp)
    intro q hq
    refine (mem_queuePlain hq).imp id fun heq payload' hpay => ?_
    rw [heq] at hpay
    split_ifs at hpay with hk
    cases hpay
    exact hp hk
  | ran connId ps p hps hran =>
    refine h.extend [] (by simp [store]) ?_ (by simp) (by simp)
    intro q hq
    refine (hran.posts q hq).imp id fun hnone payload hpay => ?_
    rw [hnone] at hpay
    cases hpay
  | visited hpkt hv => exact hv.candid h hpkt
  | evicted connId =>
    have hevicts := evictSession_evicts connId srv
    exact h.quiet [] (by simp [hevicts.history]) (by rw [hevicts.net]; exact List.Subset.refl _)
      (by simp) (by simp)
  | numbered => exact h.quiet [] (by simp [advancePeerId]) (List.Subset.refl _) (by simp) (by simp)
  | admitted source hello resumed now draws keys htoken hroom hH hkeys =>
    have hevicts := evictEndpoint_evicts source srv
    refine h.extend [_] (congrArg (· ++ [_]) hevicts.history) ?_ (by simp) ?_
    · intro q hq
      change q ∈ (srv.evictEndpoint source).net.pending at hq
      rw [hevicts.net] at hq
      exact Or.inl hq
    · intro a ha
      cases List.mem_singleton.mp ha
      exact admission_genuine htoken hkeys
  | forgot host => exact h.quiet [_] rfl (List.Subset.refl _) (by simp) (by simp)
  | stopped => exact h.quiet [_] rfl (List.nil_subset _) (by simp) (by simp)
  | opened secret hH => exact h.quiet [] (by simp) (List.Subset.refl _) (by simp) (by simp)

theorem Steps.candid (h : srv.Candid C) (hs : Steps C N H srv srv') : srv'.Candid C := by
  induction hs with
  | refl => exact h
  | tail _ hc ih => exact hc.candid ih

theorem act_candid (h : srv.Candid C) (a : Act) : (srv.act C N a).Candid C :=
  (act_steps a srv).candid h

theorem candid_fresh (config : ServerConfig) : Candid C { config } :=
  ⟨by simp, by simp [sentDatagrams], by simp⟩

end Server

/-! ### The client's side -/

/-- If the datagram is an unencrypted handshake packet, it is a hello of a client. -/
def Greeting (datagram : Bytes) : Prop :=
  ∀ payload, plainHandshake datagram = some payload → ∃ hello : ClientHello, payload = hello.encode

namespace Client

variable {C : Crypto} {H : ServerHello → SessionKeys → Prop} {c c' : Client}

/-- What holds of a client at any time. -/
structure Sound (C : Crypto) (c : Client) : Prop where
  tame : c.Tame
  /-- While the handshake lasts the key pair is a drawn one and the socket is open. -/
  pair : c.session.state = .handshaking → ∃ seed, c.session.ephemeral = C.kxKeypair seed
  socket : c.session.state = .handshaking → c.net.sockOpen = true
  queue : ∀ q ∈ c.net.pending, Greeting q.bytes
  wire : ∀ d ∈ c.wire, Greeting d

theorem greeting_of_none {d : Bytes} (h : plainHandshake d = none) : Greeting d := by
  intro payload hp
  rw [h] at hp
  cases hp

theorem sound_of_set (hset : ConnectionState.established.rank ≤ c.session.state.rank)
    (hqueue : ∀ q ∈ c.net.pending, Greeting q.bytes) (hwire : ∀ d ∈ c.wire, Greeting d) :
    c.Sound C where
  tame := fun hlow => absurd hlow (not_le_handshaking hset)
  pair := fun hst => absurd hset (by rw [hst]; decide)
  socket := fun hst => absurd hset (by rw [hst]; decide)
  queue := hqueue
  wire := hwire

theorem Sound.posts {p : Party} (h : c.Sound C) (hp : c.party.Posts p) :
    ∀ q ∈ p.net.pending, Greeting q.bytes :=
  fun q hq => (hp q hq).elim (h.queue q) greeting_of_none

theorem Change.sound (h : c.Sound C) (hc : Change C H c c') : c'.Sound C := by
  cases hc with
  | ran p hran hrank =>
    refine sound_of_set ?_ (h.posts hran.posts) h.wire
    exact hrank.elim (fun hr => hr.trans hran.rank) (le_trans (by decide))
  | visited now socket =>
    obtain ⟨budget, lastSendMs, net, wire, hshape, ho, hsub, hwire⟩ :=
      c.visitHead_shape now socket
    rw [hshape]
    refine ⟨h.tame, h.pair, fun hst => ho.trans (h.socket hst), fun q hq => h.queue q (hsub hq), ?_⟩
    intro d hd
    rcases hwire d hd with hold | ⟨q, hq, rfl⟩
    · exact h.wire d hold
    · exact h.queue q hq
  | expired now => exact ⟨h.tame, h.pair, h.socket, h.queue, h.wire⟩
  | greeted hstate =>
    obtain ⟨s, net, hshape, hs, ho, hq⟩ := greeted_shape (C := C) c
    rw [hshape]
    have hqueue : ∀ q ∈ net.pending, Greeting q.bytes := by
      intro q hmem
      rcases hq q hmem with hold | hnew
      · exact h.queue q hold
      · intro payload hp
        rw [hnew] at hp
        cases hp
        exact ⟨_, rfl⟩
    rcases hs with rfl | rfl <;>
      exact ⟨h.tame, h.pair, fun hst => ho.trans (h.socket hst), hqueue, h.wire⟩
  | retried token hstate => exact ⟨h.tame, h.pair, h.socket, h.queue, h.wire⟩
  | adopted hello keys now p hstate hH hsteps hrank =>
    refine sound_of_set hrank ?_ h.wire
    intro q hq
    exact (hsteps.posts q hq).elim (h.queue q) greeting_of_none

theorem Steps.sound (h : c.Sound C) (hs : Steps C H c c') : c'.Sound C := by
  induction hs with
  | refl => exact h
  | tail _ hc ih => exact hc.sound ih

theorem act_sound (h : c.Sound C) (a : Act) : (c.act C a).Sound C := by
  rcases act_cases (C := C) h.tame a with hs | hcl | ⟨c₀, hb, hs⟩
  · refine hs.sound ?_
    rw [noting_eq]
    exact ⟨h.tame, h.pair, h.socket, h.queue, h.wire⟩
  · refine ⟨hcl.tame, ?_, ?_, by simp [hcl.queue], by rw [hcl.wire]; exact h.wire⟩
    · intro hst
      rw [hcl.state] at hst
      cases hst
    · intro hst
      rw [hcl.state] at hst
      cases hst
  · refine hs.sound ⟨hb.tame, fun _ => hb.ephemeral, fun _ => hb.socket, by simp [hb.queue], ?_⟩
    rw [hb.wire]
    exact h.wire

theorem create_sound (config : ClientConfig) (now : UInt64) : (create config now).Sound C :=
  ⟨create_tame config now, by simp [create], by simp [create], by simp [create], by simp [create]⟩

end Client

/-! ### Both together -/

namespace World

variable {ι : Type} {C : Crypto} {N : InetNtop} {w : World ι}

structure Sound (C : Crypto) (w : World ι) : Prop where
  clients : ∀ i, (w.clients i).Sound C
  server : w.server.Candid C

theorem act_sound [DecidableEq ι] (h : w.Sound C) (a : Act ι) : (w.act C N a).Sound C := by
  cases a with
  | server a => exact ⟨h.clients, Server.act_candid h.server a⟩
  | client i a =>
    refine ⟨fun j => ?_, h.server⟩
    change (Function.update w.clients i ((w.clients i).act C a) j).Sound C
    by_cases hij : j = i
    · subst hij
      rw [Function.update_self]
      exact Client.act_sound (h.clients j) a
    · rw [Function.update_of_ne hij]
      exact h.clients j

theorem Initial.sound (h : w.Initial) : w.Sound C := by
  refine ⟨fun i => ?_, ?_⟩
  · obtain ⟨config, now, hc⟩ := h.clients i
    rw [hc]
    exact Client.create_sound config now
  · obtain ⟨config, hs⟩ := h.server
    rw [hs]
    exact Server.candid_fresh config

theorem Runs.sound [DecidableEq ι] {l : List (Act ι)} (h : Runs C N l w) (hw : w.Initial) :
    (w.acts C N l).Sound C :=
  h.preserves (fun _ a _ hs => act_sound hs a) hw.sound

/-- A server hello on the air was made for a session the server admitted. -/
theorem Sound.made {d payload : Bytes} {hello : ServerHello} (h : w.Sound C) (hd : w.OnAir d)
    (hp : plainHandshake d = some payload) (hr : readServerHello payload = .ok hello) :
    ∃ a, ServerEvent.admitted a ∈ w.server.history ∧ a.Made C hello ∧ a.Genuine C := by
  obtain ⟨henc, -⟩ := readServerHello_eq_ok.mp hr
  rcases hd with ⟨i, hi⟩ | hs
  · -- A client's hello has another type byte.
    obtain ⟨ch, hch⟩ := (h.clients i).wire d hi payload hp
    rw [hch] at henc
    exact absurd (List.cons.inj henc).1 (by decide)
  · rcases h.server.sent d hs payload hp with ⟨token, htok⟩ | ⟨a, hello', ha, hmade, hpay⟩
    · rw [htok] at henc
      exact absurd (List.cons.inj henc).1 (by decide)
    · obtain rfl := ServerHello.encode_inj (henc.symm.trans hpay)
      exact ⟨a, ha, hmade, h.server.admitted a ha⟩

end World

end SecureCnet
