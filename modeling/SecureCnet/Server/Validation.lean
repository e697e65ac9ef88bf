import SecureCnet.Server.Effects

/-!
# Address validation without state

A server stores a session only in answer to a hello that carries a token made for the
endpoint it comes from. What a token is made of can be read off its MAC input, so a
token is good for one endpoint, key, nonce and time only.
-/

namespace SecureCnet

/-- The fields of a stored session that are fixed when it is created. -/
structure PeerSession.SameOrigin (ps ps' : PeerSession) : Prop where
  endpoint : ps'.session.endpoint = ps.session.endpoint
  connId : ps'.session.connId = ps.session.connId
  keys : ps'.session.keys = ps.session.keys
  peerId : ps'.peerId = ps.peerId
  serverNonce : ps'.serverNonce = ps.serverNonce
  hello : ps'.clientHello = ps.clientHello

namespace PeerSession

variable {ps ps' ps'' : PeerSession}

theorem SameOrigin.refl (ps : PeerSession) : ps.SameOrigin ps := ⟨rfl, rfl, rfl, rfl, rfl, rfl⟩

theorem SameOrigin.trans (h : ps.SameOrigin ps') (h' : ps'.SameOrigin ps'') : ps.SameOrigin ps'' :=
  ⟨h'.endpoint.trans h.endpoint, h'.connId.trans h.connId, h'.keys.trans h.keys,
    h'.peerId.trans h.peerId, h'.serverNonce.trans h.serverNonce, h'.hello.trans h.hello⟩

end PeerSession

namespace Server

variable (C : Crypto) (N : InetNtop)

/-- The hello holds a token made with the server's secret for the endpoint it comes from. -/
def Validated (srv : Server) (source : Endpoint) (hello : ClientHello) (now : UInt64) : Prop :=
  (∃ token, hello.retryToken = some token ∧
    token.issuedAtMs ≤ now ∧ now.toNat - 1500 ≤ token.issuedAtMs.toNat ∧
    token.mac = (makeRetryToken C N srv.cookieSecret source hello token.issuedAtMs).mac) ∨
  (srv.config.enableSessionResumption = true ∧ hello.retryToken = none ∧
    ∃ token, hello.resumptionToken = some token ∧
      token.issuedAtMs ≤ now ∧ now ≤ token.expiresAtMs ∧
      ∃ input, resumptionMacInput N source token.issuedAtMs token.expiresAtMs token.ticketId =
        .ok input ∧ C.genericHash srv.cookieSecret input = some token.mac)

variable {C N} {srv srv' srv'' : Server} {source : Endpoint} {hello : ClientHello} {now : UInt64}

theorem Admits.validated {resumed : Bool} (h : srv.Admits C N source hello now resumed) :
    srv.Validated C N source hello now := by
  cases resumed with
  | false =>
    obtain ⟨-, token, htoken, hval⟩ := h
    obtain ⟨hle, hage, hmac⟩ := validateRetryToken_eq_ok.mp hval
    have hnat := UInt64.le_iff_toNat_le.mp hage
    rw [UInt64.toNat_sub_of_le _ _ hle] at hnat
    have hlife : NetConfig.retryTokenLifetimeMs.toNat = 1500 := rfl
    exact Or.inl ⟨token, htoken, hle, by omega, hmac⟩
  | true =>
    obtain ⟨hon, hretry, token, htoken, hval⟩ := h
    obtain ⟨-, hle, -, hexp, hhash⟩ := validateResumptionToken_eq_ok.mp hval
    exact Or.inr ⟨hon, hretry, token, htoken, hle, hexp, _, resumptionMacInput_eq, hhash⟩

/-- Sessions are either older or admitted on the way, in the way `P` says. -/
def Admitting (P : Admission → Prop) (srv srv' : Server) : Prop :=
  ∃ es, srv'.history = srv.history ++ es ∧
    (∀ adm, ServerEvent.admitted adm ∈ es → adm.peer.session.endpoint = adm.source ∧ P adm) ∧
    ∀ connId ps', srv'.sessions.lookup connId = some ps' →
      (∃ ps, srv.sessions.lookup connId = some ps ∧ ps.SameOrigin ps') ∨
        ∃ adm, ServerEvent.admitted adm ∈ es ∧ adm.peer.session.connId = connId ∧
          adm.peer.SameOrigin ps'

variable {P : Admission → Prop}

theorem Admitting.quiet (es : List ServerEvent) (hes : ∀ adm, ServerEvent.admitted adm ∉ es)
    (hhist : srv'.history = srv.history ++ es)
    (hsess : ∀ connId ps', srv'.sessions.lookup connId = some ps' →
      ∃ ps, srv.sessions.lookup connId = some ps ∧ ps.SameOrigin ps') : srv.Admitting P srv' :=
  ⟨es, hhist, fun adm hadm => absurd hadm (hes adm),
    fun connId ps' hl => Or.inl (hsess connId ps' hl)⟩

theorem Admitting.same (es : List ServerEvent) (hes : ∀ adm, ServerEvent.admitted adm ∉ es)
    (hhist : srv'.history = srv.history ++ es) (hsess : srv'.sessions = srv.sessions) :
    srv.Admitting P srv' :=
  .quiet es hes hhist fun _ ps' hl => ⟨ps', hsess ▸ hl, .refl ps'⟩

theorem Admitting.refl (P : Admission → Prop) (srv : Server) : srv.Admitting P srv :=
  .same [] (by simp) (by simp) rfl

theorem Admitting.trans (h : srv.Admitting P srv') (h' : srv'.Admitting P srv'') :
    srv.Admitting P srv'' := by
  obtain ⟨es, hhist, hP, hsess⟩ := h
  obtain ⟨es', hhist', hP', hsess'⟩ := h'
  refine ⟨es ++ es', by rw [hhist', hhist, List.append_assoc], ?_, ?_⟩
  · intro adm hadm
    rcases List.mem_append.mp hadm with hm | hm
    · exact hP adm hm
    · exact hP' adm hm
  · intro connId ps'' hl
    rcases hsess' connId ps'' hl with ⟨ps', hps', ho'⟩ | ⟨adm, hadm, hid, ho⟩
    · rcases hsess connId ps' hps' with ⟨ps, hps, ho⟩ | ⟨adm, hadm, hid, ho⟩
      · exact Or.inl ⟨ps, hps, ho.trans ho'⟩
      · exact Or.inr ⟨adm, List.mem_append_left _ hadm, hid, ho.trans ho'⟩
    · exact Or.inr ⟨adm, List.mem_append_right _ hadm, hid, ho⟩

theorem Admitting.store {connId : UInt64} {ps : PeerSession} {p : Party}
    (hps : srv.sessions.lookup connId = some ps) (hp : (srv.party connId ps).Continues p) :
    srv.Admitting P (srv.store connId ps p) := by
  refine .quiet [] (by simp) (by simp [Server.store]) ?_
  intro connId' ps' hl
  rcases of_lookup_store hl with ⟨rfl, rfl⟩ | ⟨-, hold⟩
  · exact ⟨ps, hps, hp.endpoint, hp.connId, hp.keys, rfl, rfl, rfl⟩
  · exact ⟨ps', hold, .refl ps'⟩

theorem Admitting.admitted {adm : Admission} (hsource : adm.peer.session.endpoint = adm.source)
    (hP : P adm) (endpoint : Endpoint) :
    srv.Admitting P (srv.seat endpoint adm) := by
  refine ⟨[.admitted adm], congrArg (· ++ _) (evictEndpoint_evicts endpoint srv).history, ?_, ?_⟩
  · intro adm' hadm
    rw [List.mem_singleton] at hadm
    cases hadm
    exact ⟨hsource, hP⟩
  · intro connId ps' hl
    rcases of_lookup_seat hl with ⟨rfl, rfl⟩ | ⟨-, hold⟩
    · exact Or.inr ⟨adm, List.mem_singleton_self _, rfl, .refl _⟩
    · exact Or.inl ⟨ps', hold, .refl ps'⟩

variable {H : Endpoint → ClientHello → UInt64 → Prop}

theorem Change.sameRules (hH : H source hello now) (hc : Change C N H srv srv') :
    srv.SameRules srv' := by
  cases hc with
  | hosts hn => exact hn.sameTable.rules
  | visited hpkt hv => cases hv <;> exact ⟨rfl, rfl⟩
  | evicted connId => exact (evictSession_evicts connId srv).rules
  | admitted source =>
    exact ⟨(evictEndpoint_evicts source srv).rules.config,
      (evictEndpoint_evicts source srv).rules.cookieSecret⟩
  | opened secret hnone => exact absurd hH (hnone source hello now)
  | _ => exact ⟨rfl, rfl⟩

theorem Steps.sameRules (hH : H source hello now) (hs : Steps C N H srv srv') :
    srv.SameRules srv' := by
  induction hs with
  | refl => exact ⟨rfl, rfl⟩
  | tail _ hc ih => exact ih.trans (hc.sameRules hH)

/-- One elementary change admits at most a validated hello. -/
theorem Change.admitting (hc : Change C N H srv srv') :
    srv.Admitting (fun adm => H adm.source adm.hello adm.now ∧
      srv.Validated C N adm.source adm.hello adm.now) srv' := by
  cases hc with
  | hosts hn =>
    obtain ⟨_, _, rfl⟩ := hn
    exact .same [] (by simp) (by simp) rfl
  | counted endpoint bytes now => exact .same [_] (by simp) rfl rfl
  | plain now dest kind payload connId owner ho => exact .same [] (by simp) (by simp [queuePlain]) rfl
  | ran connId ps p hps hran => exact .store hps (hran.continues ⟨srv.config, rfl⟩)
  | visited hpkt hv =>
    cases hv with
    | refused => exact .refl _ srv
    | sent howner => exact .same [_] (by simp) rfl rfl
    | dropped howner hnone => exact .same [] (by simp) (by simp) rfl
    | left ps p socket bytes howner hps hflush =>
      exact (Admitting.store hps (Party.flushAt_continues hflush)).trans
        (.same [_] (by simp) rfl rfl)
    | stayed ps p socket howner hps hflush =>
      exact .store hps (Party.flushAt_continues hflush)
  | evicted connId =>
    have hevict := evictSession_evicts connId srv
    exact .quiet [] (by simp) (by simp [hevict.history])
      fun connId' ps' hl => ⟨ps', hevict.sub connId' ps' hl, .refl ps'⟩
  | numbered => exact .same [] (by simp) (by simp [advancePeerId]) rfl
  | admitted source hello resumed now draws keys htoken hroom hH hkeys =>
    exact .admitted (admission_endpoint ..) ⟨hH, htoken.validated⟩ source
  | forgot host => exact .same [_] (by simp) rfl rfl
  | stopped => exact .quiet [_] (by simp) rfl fun _ _ hl => absurd hl (by simp [stop, log])
  | opened secret hnone => exact .same [] (by simp) (by simp) rfl

theorem Admitting.mono {Q : Admission → Prop} (h : srv.Admitting P srv') (hPQ : ∀ adm, P adm → Q adm) :
    srv.Admitting Q srv' := by
  obtain ⟨es, hhist, hP, hsess⟩ := h
  exact ⟨es, hhist, fun adm hadm => ⟨(hP adm hadm).1, hPQ adm (hP adm hadm).2⟩, hsess⟩

theorem Validated.sameRules (h : srv'.Validated C N source hello now) (hs : srv.SameRules srv') :
    srv.Validated C N source hello now := by
  unfold Validated at h ⊢
  rwa [hs.config, hs.cookieSecret] at h

theorem Steps.admitting (hs : Steps C N H srv srv') :
    srv.Admitting (fun adm => H adm.source adm.hello adm.now ∧
      srv.Validated C N adm.source adm.hello adm.now) srv' := by
  induction hs with
  | refl => exact .refl _ srv
  | tail hs hc ih =>
    refine ih.trans (hc.admitting.mono ?_)
    rintro adm ⟨hH, hval⟩
    exact ⟨hH, hval.sameRules (Steps.sameRules hH hs)⟩

end Server

/-! ### What a token is good for -/

variable {C : Crypto} {N : InetNtop}

theorem retryMacInput_inj {source source' : Endpoint} {publicKey publicKey' : Block 32}
    {nonce nonce' : Block 16} {issuedAtMs issuedAtMs' : UInt64}
    (h : retryMacInput N source publicKey nonce issuedAtMs =
      retryMacInput N source' publicKey' nonce' issuedAtMs') :
    source.toText N = source'.toText N ∧ publicKey = publicKey' ∧ nonce = nonce' ∧
      issuedAtMs = issuedAtMs' := by
  rw [retryMacInput_eq, retryMacInput_eq] at h
  have hlen : ∀ e : Endpoint, (e.toText N).length < 2 ^ 16 := fun e =>
    (Endpoint.length_toText_le e).trans_lt (by decide)
  exact retryLayout_inj (hlen source) (hlen source') h

theorem resumptionMacInput_inj {source source' : Endpoint}
    {issuedAtMs issuedAtMs' expiresAtMs expiresAtMs' ticketId ticketId' : UInt64}
    (h : resumptionMacInput N source issuedAtMs expiresAtMs ticketId =
      resumptionMacInput N source' issuedAtMs' expiresAtMs' ticketId') :
    source.hostText N = source'.hostText N ∧ issuedAtMs = issuedAtMs' ∧
      expiresAtMs = expiresAtMs' ∧ ticketId = ticketId' := by
  rw [resumptionMacInput_eq, resumptionMacInput_eq] at h
  exact resumptionLayout_inj (Except.ok.inj h)

/-- Without a collision, the MAC of a retry token is good for the fields it was made from only. -/
theorem retryToken_fields {secret : Block 32} {S : Set Bytes} (hS : Set.InjOn (tokenMac C secret) S)
    {source source' : Endpoint} {hello hello' : ClientHello} {issuedAtMs now : UInt64}
    {token : RetryToken}
    (hin : retryMacInput N source hello.clientPublicKey hello.clientNonce issuedAtMs ∈ S)
    (hin' : retryMacInput N source' hello'.clientPublicKey hello'.clientNonce token.issuedAtMs ∈ S)
    (hmac : token.mac = (makeRetryToken C N secret source hello issuedAtMs).mac)
    (hval : validateRetryToken C N secret source' hello' token now = .ok ()) :
    source.toText N = source'.toText N ∧ hello.clientPublicKey = hello'.clientPublicKey ∧
      hello.clientNonce = hello'.clientNonce ∧ issuedAtMs = token.issuedAtMs := by
  obtain ⟨-, -, hmac'⟩ := validateRetryToken_eq_ok.mp hval
  exact retryMacInput_inj (hS hin hin' (hmac.symm.trans hmac'))

/-- Sessions are stored only for endpoints that returned a token made for them. -/
theorem stateless_address_validation (C : Crypto) (N : InetNtop) :
    (∀ (srv : Server) (a : Server.Act), ∃ es, (srv.act C N a).history = srv.history ++ es ∧
      (∀ adm, ServerEvent.admitted adm ∈ es → adm.peer.session.endpoint = adm.source ∧
        a.Hello adm.source adm.hello adm.now ∧
        srv.Validated C N adm.source adm.hello adm.now) ∧
      ∀ connId ps', (srv.act C N a).sessions.lookup connId = some ps' →
        (∃ ps, srv.sessions.lookup connId = some ps ∧ ps.SameOrigin ps') ∨
          ∃ adm, ServerEvent.admitted adm ∈ es ∧ adm.peer.session.connId = connId ∧
            adm.peer.SameOrigin ps') ∧
    (∀ source source' publicKey publicKey' nonce nonce' issuedAtMs issuedAtMs',
      retryMacInput N source publicKey nonce issuedAtMs =
        retryMacInput N source' publicKey' nonce' issuedAtMs' →
      source.toText N = source'.toText N ∧ publicKey = publicKey' ∧ nonce = nonce' ∧
        issuedAtMs = issuedAtMs') ∧
    (∀ source source' issuedAtMs issuedAtMs' expiresAtMs expiresAtMs' ticketId ticketId',
      resumptionMacInput N source issuedAtMs expiresAtMs ticketId =
        resumptionMacInput N source' issuedAtMs' expiresAtMs' ticketId' →
      source.hostText N = source'.hostText N ∧ issuedAtMs = issuedAtMs' ∧
        expiresAtMs = expiresAtMs' ∧ ticketId = ticketId') ∧
    (∀ source publicKey nonce issuedAtMs,
      retryMacInput N source publicKey nonce issuedAtMs =
        retryLayout (source.toText N) publicKey nonce issuedAtMs ∧
      (retryLayout (source.toText N) publicKey nonce issuedAtMs).length ≤ 256) ∧
    (∀ source issuedAtMs expiresAtMs ticketId,
      resumptionMacInput N source issuedAtMs expiresAtMs ticketId =
        .ok (resumptionLayout (source.hostText N) issuedAtMs expiresAtMs ticketId) ∧
      (resumptionLayout (source.hostText N) issuedAtMs expiresAtMs ticketId).length ≤ 256) ∧
    ∀ secret S, Set.InjOn (tokenMac C secret) S →
      ∀ (source source' : Endpoint) (hello hello' : ClientHello) issuedAtMs now token,
        retryMacInput N source hello.clientPublicKey hello.clientNonce issuedAtMs ∈ S →
        retryMacInput N source' hello'.clientPublicKey hello'.clientNonce
          token.issuedAtMs ∈ S →
        token.mac = (makeRetryToken C N secret source hello issuedAtMs).mac →
        validateRetryToken C N secret source' hello' token now = .ok () →
        source.toText N = source'.toText N ∧ hello.clientPublicKey = hello'.clientPublicKey ∧
          hello.clientNonce = hello'.clientNonce ∧ issuedAtMs = token.issuedAtMs := by
  refine ⟨?_, ?_, ?_, ?_, ?_, ?_⟩
  · intro srv a
    exact (Server.act_steps a srv).admitting
  · intro source source' publicKey publicKey' nonce nonce' issuedAtMs issuedAtMs' h
    exact retryMacInput_inj h
  · intro source source' issuedAtMs issuedAtMs' expiresAtMs expiresAtMs' ticketId ticketId' h
    exact resumptionMacInput_inj h
  · intro source publicKey nonce issuedAtMs
    have hlen := Endpoint.length_toText_le (N := N) source
    exact ⟨retryMacInput_eq, by rw [length_retryLayout]; omega⟩
  · intro source issuedAtMs expiresAtMs ticketId
    have hlen := Endpoint.length_hostText_le (N := N) source
    exact ⟨resumptionMacInput_eq, by rw [length_resumptionLayout]; omega⟩
  · intro secret S hS source source' hello hello' issuedAtMs now token hin hin' hmac hval
    exact retryToken_fields hS hin hin' hmac hval

/-! ### An endpoint that returns its token -/

/-- Primitives whose keyed hash is a polynomial in the bytes of key and data. -/
def Crypto.checksum : Crypto := { Crypto.standIn with
  genericHash := fun key data =>
    some ⟨BigEndian.toBE 16 ((key.toList ++ data).foldl (fun h b => h * 257 + b.toNat + 1) 0),
      by simp⟩ }

/-- The datagram a client sends its hello in. -/
def helloDatagram (hello : ClientHello) : Bytes :=
  match writeClientHello ⟨128, []⟩ hello with
  | .error _ => []
  | .ok w => (buildPacket .standIn .handshake false w.out 0 1 (Block.zero 32)).toOption.getD []

def firstHello : ClientHello :=
  ⟨List.Vector.replicate 32 1, List.Vector.replicate 16 2, none, none⟩

/-- The token a listening server answers `firstHello` with at time 1000. -/
def returnedToken : RetryToken :=
  makeRetryToken .checksum .standard (Block.zero 32) loopback firstHello 1000

def returningHello : ClientHello := { firstHello with retryToken := some returnedToken }

def listening : Server := ({} : Server).run .checksum .standard [.listen .ready (Block.zero 32)]

/-- Both hellos of a client reach a server, which gives the session the id 7. -/
def afterHellos : List Server.Op :=
  [.listen .ready (Block.zero 32),
    .tick { flushNow := 1000, reliableNow := 1000, housekeepingNow := 1200, arrivals :=
      [.datagram loopback (helloDatagram firstHello) 1000 {},
        .datagram loopback (helloDatagram returningHello) 1200 { connIds := [7] }] }]

/-- The hello with the token is admitted, and the token is good for its own fields. -/
theorem returningHello_validated :
    (∃ adm : Admission, adm.peer.session.connId = 7 ∧
      listening.Validated .checksum .standard adm.source adm.hello adm.now) ∧
    validateRetryToken .checksum .standard (Block.zero 32) loopback returningHello returnedToken
      1200 = .ok () ∧
    firstHello.clientNonce = returningHello.clientNonce := by
  obtain ⟨hact, -, -, -, -, hfields⟩ := stateless_address_validation .checksum .standard
  have hval : validateRetryToken .checksum .standard (Block.zero 32) loopback returningHello
      returnedToken 1200 = .ok () := by
    decide +kernel
  refine ⟨?_, hval, ?_⟩
  · obtain ⟨es, -, hadm, hsess⟩ := hact listening
      (.receive loopback (helloDatagram returningHello) 1200 { connIds := [7] })
    obtain ⟨ps', hps'⟩ := Option.isSome_iff_exists.mp (show ((listening.act .checksum .standard
      (.receive loopback (helloDatagram returningHello) 1200
        { connIds := [7] })).sessions.lookup 7).isSome = true by decide +kernel)
    rcases hsess 7 ps' hps' with ⟨ps, hps, -⟩ | ⟨adm, hmem, hid, -⟩
    · have hnone : listening.sessions.lookup 7 = none := by decide +kernel
      rw [hnone] at hps
      cases hps
    · exact ⟨adm, hid, (hadm adm hmem).2.2⟩
  · let S : Set Bytes := {retryMacInput .standard loopback firstHello.clientPublicKey
        firstHello.clientNonce 1000, retryMacInput .standard longHost firstHello.clientPublicKey
        firstHello.clientNonce 1000}
    have hS : Set.InjOn (tokenMac .checksum (Block.zero 32)) S :=
      Set.injOn_pair.mpr fun h => absurd h (by decide +kernel)
    exact (hfields (Block.zero 32) S hS loopback loopback firstHello returningHello 1000 1200
      returnedToken (Or.inl rfl) (Or.inl rfl) rfl hval).2.2.1

end SecureCnet
