import SecureCnet.World.Origin
import SecureCnet.Client.AuthFailure

/-!
# Handshake agreement

A client that gets established shares its keys with a session the server admitted for
exactly the hello the client stands by at that moment. The client accepts a server hello
if its MAC fits the transcript with the current hello; the server made it over the hello
it saved. Without a collision of the keyed hash the two hellos are the same.
-/

namespace SecureCnet

/-- Two honest ends of a key exchange get the same keys the other way round. -/
structure Crypto.IdealKx (C : Crypto) : Prop where
  exchange : ∀ s t, ∃ k, C.kxServer (C.kxKeypair t) (C.kxKeypair s).publicKey = some k ∧
    C.kxClient (C.kxKeypair s) (C.kxKeypair t).publicKey = some k.complement ∧ k.empty = false

/-- The keyed hash does not fail, and no two of the given inputs collide. -/
structure Crypto.IdealHash (C : Crypto) (S : Set (Block 32 × Bytes)) : Prop where
  total : ∀ x ∈ S, (C.genericHash x.1 x.2).isSome
  inj : Set.InjOn (fun x => C.genericHash x.1 x.2) S

namespace Client

variable {C : Crypto} {H : ServerHello → SessionKeys → Prop} {c c' : Client} {hello : ServerHello}
  {keys : SessionKeys} {a : Admission} {seed : Block 32}

theorem verifyServerHello_eq (hello : ServerHello) (c : Client) :
    c.verifyServerHello C hello =
      match C.kxClient c.session.ephemeral hello.serverPublicKey with
      | none => fail .authFailed "client session key derivation failed"
      | some keys =>
        match C.genericHash keys.rx (transcript c.currentHello hello) with
        | none => fail .internal "keyed hash failed"
        | some mac =>
          if mac ≠ hello.transcriptMac then fail .authFailed "server hello MAC mismatch"
          else .ok keys := by
  unfold verifyServerHello cryptoDeriveClientSessionKeys cryptoKeyedHash
  rw [buildTranscriptMacInput_eq, if_pos (length_transcript_le _ _)]
  cases C.kxClient c.session.ephemeral hello.serverPublicKey with
  | none => rfl
  | some keys =>
    simp only [Result.ok_bind]
    cases C.genericHash keys.rx (transcript c.currentHello hello) with
    | none => rfl
    | some mac => rfl

theorem verifyServerHello_eq_ok : c.verifyServerHello C hello = .ok keys ↔
    C.kxClient c.session.ephemeral hello.serverPublicKey = some keys ∧
      C.genericHash keys.rx (transcript c.currentHello hello) = some hello.transcriptMac := by
  rw [verifyServerHello_eq]
  cases C.kxClient c.session.ephemeral hello.serverPublicKey with
  | none => simp [fail]
  | some keys' =>
    dsimp only
    cases hh : C.genericHash keys'.rx (transcript c.currentHello hello) with
    | none =>
      simp only [fail, Option.some.injEq, reduceCtorEq, false_iff]
      rintro ⟨rfl, hmac⟩
      rw [hh] at hmac
      cases hmac
    | some mac =>
      dsimp only
      split_ifs with hne
      · simp only [fail, Option.some.injEq, reduceCtorEq, false_iff]
        rintro ⟨rfl, hmac⟩
        rw [hh] at hmac
        exact hne (Option.some.inj hmac)
      · rw [not_not] at hne
        constructor
        · intro h
          cases h
          exact ⟨rfl, by rw [hh, hne]⟩
        · rintro ⟨h, -⟩
          cases h
          rfl

/-- The keys a client derives from a server hello are those of the session it was made for, if the
session was admitted for the client's hello. -/
theorem verifyServerHello_of_same (hkx : C.IdealKx) (hpair : c.session.ephemeral = C.kxKeypair seed)
    (hmade : a.Made C hello) (hgen : a.Genuine C) (hsame : a.hello = c.currentHello) :
    c.verifyServerHello C hello = .ok a.peer.session.keys.complement ∧
      a.peer.session.keys.empty = false := by
  obtain ⟨t, hpub, hserver⟩ := hgen.exchange
  obtain ⟨k, hk, hclient, hne⟩ := hkx.exchange seed t
  have hkey : a.hello.clientPublicKey = (C.kxKeypair seed).publicKey := by
    rw [hsame, ← hpair]
    rfl
  rw [hkey, hk] at hserver
  obtain rfl := Option.some.inj hserver
  refine ⟨verifyServerHello_eq_ok.mpr ⟨?_, ?_⟩, hne⟩
  · rw [hpair, hmade.publicKey, hpub]
    exact hclient
  · have hmac := hmade.mac
    rw [hgen.hello, hsame] at hmac
    exact hmac

/-- The inputs of the keyed hash a client compares when it gets a server hello: its own, and those
of the sessions admitted by then. -/
def compared (C : Crypto) (history : List ServerEvent) (hello : ServerHello) (c : Client) :
    Set (Block 32 × Bytes) :=
  {x | ∃ keys, C.kxClient c.session.ephemeral hello.serverPublicKey = some keys ∧
      x = (keys.rx, transcript c.currentHello hello)} ∪
    {x | ∃ a, ServerEvent.admitted a ∈ history ∧
      x = (a.peer.session.keys.tx, transcript a.peer.clientHello hello)}

theorem same_of_verifyServerHello {history : List ServerEvent}
    (hhash : C.IdealHash (c.compared C history hello)) (ha : ServerEvent.admitted a ∈ history)
    (hmade : a.Made C hello) (hgen : a.Genuine C)
    (hv : c.verifyServerHello C hello = .ok keys) : a.hello = c.currentHello := by
  obtain ⟨hkeys, hmac⟩ := verifyServerHello_eq_ok.mp hv
  have hpair := hhash.inj (Or.inl ⟨keys, hkeys, rfl⟩) (Or.inr ⟨a, ha, rfl⟩)
    (hmac.trans hmade.mac.symm)
  have hsame := (transcript_inj (Prod.mk.inj hpair).2).1
  rw [← hgen.hello]
  exact hsame.symm

/-! ### How a client gets established -/

/-- Only a server hello establishes a connection, and it brings the keys and the id. -/
theorem Steps.established (hbefore : c.session.state ≠ .established) (hs : Steps C H c c')
    (hafter : c'.session.state = .established) :
    ∃ hello keys, H hello keys ∧ c'.session.connId = hello.serverConnId ∧
      c'.session.keys = keys := by
  induction hs with
  | refl => exact absurd hafter hbefore
  | @tail b c' _ hchange ih =>
    have hopen : c'.session.state ≠ .closed := by
      rw [hafter]
      decide
    rcases hchange.cases with ⟨p, rfl, hran, hrank⟩ | hquiet | ⟨hello, keys, now, p, rfl, -, hH, h, -⟩
    · obtain ⟨hello, keys, hH, hid, hkeys⟩ := ih (established_of_rank hafter hran.rank hrank)
      have hlasts := hran.lasts hopen
      exact ⟨hello, keys, hH, hlasts.connId.trans hid, hlasts.keys.trans hkeys⟩
    · rw [hquiet.state] at hafter
      rw [hquiet.connId, hquiet.keys]
      exact ih hafter
    · have hlasts := h.lasts hopen
      exact ⟨hello, keys, hH, hlasts.connId, hlasts.keys⟩

end Client

/-- A session the server admitted is the other end of an established client: `c` is the client
before it got established, `c'` after. -/
structure Admission.Agrees (adm : Admission) (c c' : Client) : Prop where
  connId : adm.peer.session.connId = c'.session.connId
  hello : adm.hello = c.currentHello
  keys : adm.peer.session.keys = c'.session.keys.complement
  connId_ne : c'.session.connId ≠ 0
  keys_ne : c'.session.keys.empty = false

namespace World

variable {ι : Type} [DecidableEq ι] {C : Crypto} {N : InetNtop}

/-- A client that gets established has the keys of a session admitted for its current hello. -/
theorem handshake_agreement (hkx : C.IdealKx) {w : World ι} (hw : w.Initial) {l : List (Act ι)}
    (hrun : Runs C N l w) (i : ι) (a : Client.Act) (ha : (w.acts C N l).Allowed (.client i a))
    (hhash : ∀ d hello, a.datagram = some d → helloIn d = some hello →
      C.IdealHash (((w.acts C N l).clients i).compared C (w.acts C N l).server.history hello))
    (hbefore : ((w.acts C N l).clients i).session.state ≠ .established)
    (hafter : (((w.acts C N l).act C N (.client i a)).clients i).session.state = .established) :
    ∃ adm, ServerEvent.admitted adm ∈ (w.acts C N l).server.history ∧
      adm.Agrees ((w.acts C N l).clients i) (((w.acts C N l).act C N (.client i a)).clients i) := by
  have hsound := hrun.sound hw
  generalize w.acts C N l = v at ha hhash hbefore hafter hsound ⊢
  have hact : (v.act C N (.client i a)).clients i = (v.clients i).act C a :=
    Function.update_self i _ _
  rw [hact] at hafter ⊢
  have hclient := hsound.clients i
  -- Taking down and starting over do not establish anything.
  rcases Client.act_cases (C := C) hclient.tame a with hs | hcl | ⟨c₀, hb, hs⟩
  · obtain ⟨hello, keys, ⟨d, now, visits, packet, rfl, hparse, hkind, hplain, hstate, hread, hverify⟩,
      hid, hkeys⟩ := hs.established (by rw [Client.noting_eq]; exact hbefore) hafter
    have hp : plainHandshake d = some packet.payload :=
      plainHandshake_eq_some.mpr ⟨packet, hparse, hkind, hplain, rfl⟩
    obtain ⟨adm, hadm, hmade, hgen⟩ := hsound.made (ha d rfl) hp hread
    have hsame := Client.same_of_verifyServerHello
      (hhash d hello rfl (helloIn_eq_some.mpr ⟨_, hp, hread⟩)) hadm hmade hgen hverify
    obtain ⟨seed, hpair⟩ := hclient.pair hstate
    obtain ⟨hok, hne⟩ := Client.verifyServerHello_of_same hkx hpair hmade hgen hsame
    have hk : keys = adm.peer.session.keys.complement := Except.ok.inj (hverify.symm.trans hok)
    refine ⟨adm, hadm, hmade.connId.symm.trans hid.symm, hsame, ?_, ?_, ?_⟩
    · rw [hkeys, hk, SessionKeys.complement_complement]
    · rw [hid]
      exact (readServerHello_eq_ok.mp hread).2.serverConnId
    · rw [hkeys, hk, SessionKeys.empty_complement]
      exact hne
  · rw [hcl.state] at hafter
    cases hafter
  · obtain ⟨hello, keys, hfalse, -⟩ := hs.established (by rw [hb.state]; decide) hafter
    exact hfalse.elim

end World

/-! ### A client and a server that meet -/

/-- Primitives whose key exchange and keyed hash keep what is asked of them below. -/
def Crypto.honest : Crypto := { Crypto.checksum with
  kxKeypair := fun seed => ⟨List.Vector.cons 1 seed.tail, seed⟩ }

theorem Crypto.honest_idealKx : Crypto.honest.IdealKx where
  exchange s t := by
    refine ⟨⟨(honest.kxKeypair s).publicKey, (honest.kxKeypair t).publicKey⟩, rfl, rfl, ?_⟩
    simp [SessionKeys.empty, honest]

namespace World

def start : World Unit := ⟨fun _ => .create {} 0, {}⟩

theorem start_initial : start.Initial := ⟨fun _ => ⟨{}, 0, rfl⟩, {}, rfl⟩

/-- The server listens, the client connects and its hello reaches the server. -/
def greet : List (Act Unit) :=
  [.server (.listen .ready (Block.zero 32)),
    .client () (.connect loopback .ready (Block.zero 32) (Block.zero 16) 1000 [(1000, .sent)])]

/-- The datagrams the client has sent. -/
def fromClient (l : List (Act Unit)) (k : ℕ) : Bytes :=
  ((start.acts .honest .standard l).clients ()).wire.getD k []

/-- The datagrams the server has sent. -/
def fromServer (l : List (Act Unit)) (k : ℕ) : Bytes :=
  (start.acts .honest .standard l).server.sentDatagrams.getD k []

/-- A retry is sent in answer to the hello. -/
def retry : List (Act Unit) := greet ++
  [.server (.receive loopback (fromClient greet 0) 1000 {}), .server (.visit 1000 0 .sent)]

/-- The hello with the retry token arrives and is answered. -/
def answer : List (Act Unit) :=
  let returned := retry ++ [.client () (.receive (fromServer retry 0) 1002 [(1002, .sent)])]
  returned ++ [.server (.receive loopback (fromClient returned 1) 1003 { connIds := [7] }),
    .server (.visit 1003 0 .sent)]

def accept : Client.Act := .receive (fromServer answer 1) 1004 []

def met : World Unit := start.acts .honest .standard answer

def answered : ServerHello := (helloIn (fromServer answer 1)).get (by decide +kernel)

/-- The client hashes under the server's key; `y` is the input of all admissions. -/
theorem compared_subset (history : List ServerEvent) (hello : ServerHello) (c : Client)
    (y : Block 32 × Bytes)
    (h : ∀ e ∈ history, (match e with
      | .admitted a =>
        decide ((a.peer.session.keys.tx, transcript a.peer.clientHello hello) = y)
      | _ => true) = true) :
    c.compared .honest history hello ⊆
      {(hello.serverPublicKey, transcript c.currentHello hello), y} := by
  rintro x (⟨keys, hkeys, rfl⟩ | ⟨adm, hadm, rfl⟩)
  · cases hkeys
    exact Or.inl rfl
  · exact Or.inr (of_decide_eq_true (h _ hadm))

theorem idealHash_of_pair {S : Set (Block 32 × Bytes)} {x y : Block 32 × Bytes}
    (hsub : S ⊆ {x, y})
    (hinj : Crypto.honest.genericHash x.1 x.2 = Crypto.honest.genericHash y.1 y.2 → x = y) :
    Crypto.honest.IdealHash S := by
  refine ⟨fun _ _ => rfl, fun u hu v hv huv => ?_⟩
  rcases hsub hu with rfl | rfl <;> rcases hsub hv with rfl | rfl
  · rfl
  · exact hinj huv
  · exact (hinj huv.symm).symm
  · rfl

theorem accept_idealHash : ∀ d hello, accept.datagram = some d → helloIn d = some hello →
    Crypto.honest.IdealHash ((met.clients ()).compared .honest met.server.history hello) := by
  intro d hello hd hh
  obtain rfl : fromServer answer 1 = d := Option.some.inj hd
  obtain rfl : answered = hello := Option.get_of_eq_some _ hh
  exact idealHash_of_pair (compared_subset met.server.history answered (met.clients ())
    (answered.serverPublicKey, transcript (met.clients ()).currentHello answered)
    (by decide +kernel)) fun _ => rfl

/-- The client gets established as the other end of a session the server admitted. -/
theorem handshake_agreement_met :
    Runs .honest .standard answer start ∧ ∃ adm, ServerEvent.admitted adm ∈ met.server.history ∧
      adm.Agrees (met.clients ()) ((met.act .honest .standard (.client () accept)).clients ()) := by
  have hrun : Runs .honest .standard answer start := by decide +kernel
  exact ⟨hrun, handshake_agreement Crypto.honest_idealKx start_initial hrun () accept
    (by decide +kernel) accept_idealHash (by decide +kernel) (by decide +kernel)⟩

end World

end SecureCnet
