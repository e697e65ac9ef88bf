import SecureCnet.World.Agreement

/-!
# Duplicates reach a client during the handshake

A duplicated hello makes the server send a second retry, with another issue time. The
client takes the newer token over whenever it arrives, so a server hello for a hello with
the older one no longer fits what the client stands by, and the connection ends with a
failed authentication. Nothing else has that effect: it takes a server hello made for
another hello than the current one, or a close frame that gives the reason.
-/

namespace SecureCnet

namespace Client

variable {C : Crypto} {c : Client} {hello : ServerHello} {history : List ServerEvent}

theorem verifyServerHello_code (hhash : C.IdealHash (c.compared C history hello)) {e : Failure}
    (h : c.verifyServerHello C hello = .error e) : e.code = .authFailed := by
  rw [verifyServerHello_eq] at h
  cases hkx : C.kxClient c.session.ephemeral hello.serverPublicKey with
  | none =>
    rw [hkx] at h
    cases h
    rfl
  | some keys =>
    rw [hkx] at h
    have htotal := hhash.total _ (Or.inl ⟨keys, hkx, rfl⟩)
    obtain ⟨mac, hmac⟩ := Option.isSome_iff_exists.mp htotal
    simp only [hmac] at h
    split_ifs at h
    cases h
    rfl

end Client

namespace World

variable {ι : Type} {C : Crypto} {N : InetNtop}

/-- What reaches a client fits: a server hello was made for a session admitted for the hello the
client stands by, and a close frame gives another reason than a failed authentication. -/
def Fits (C : Crypto) (w : World ι) (i : ι) (a : Act ι) : Prop :=
  ∀ d now visits, a = .client i (.receive d now visits) →
    (∀ hello, helloIn d = some hello → ∃ adm, ServerEvent.admitted adm ∈ w.server.history ∧
      adm.Made C hello ∧ adm.hello = (w.clients i).currentHello) ∧
    closeIn d ≠ some .authenticationFailed

/-- A server hello on its way is turned down exactly if it was made for another hello. -/
theorem Sound.verify_error_iff {w : World ι} {i : ι} {d : Bytes} {hello : ServerHello}
    (h : w.Sound C) (hkx : C.IdealKx)
    (hhash : C.IdealHash ((w.clients i).compared C w.server.history hello)) (hd : w.OnAir d)
    (hh : helloIn d = some hello) (hst : (w.clients i).session.state = .handshaking) :
    (∃ e, (w.clients i).verifyServerHello C hello = .error e ∧ e.code = .authFailed) ↔
      ¬ ∃ adm, ServerEvent.admitted adm ∈ w.server.history ∧ adm.Made C hello ∧
        adm.hello = (w.clients i).currentHello := by
  constructor
  · rintro ⟨e, he, -⟩ ⟨adm, hadm, hmade, hsame⟩
    obtain ⟨seed, hpair⟩ := (h.clients i).pair hst
    have hok := (Client.verifyServerHello_of_same hkx hpair hmade (h.server.admitted adm hadm) hsame).1
    rw [he] at hok
    cases hok
  · intro hno
    obtain ⟨payload, hp, hr⟩ := helloIn_eq_some.mp hh
    obtain ⟨adm, hadm, hmade, hgen⟩ := h.made hd hp hr
    cases hv : (w.clients i).verifyServerHello C hello with
    | error e => exact ⟨e, rfl, Client.verifyServerHello_code hhash hv⟩
    | ok keys =>
      exact absurd ⟨adm, hadm, hmade, Client.same_of_verifyServerHello hhash hadm hmade hgen hv⟩ hno

theorem Sound.turned_down_iff {w : World ι} {i : ι} {d : Bytes} (h : w.Sound C) (hkx : C.IdealKx)
    (hhash : ∀ hello, helloIn d = some hello →
      C.IdealHash ((w.clients i).compared C w.server.history hello)) (hd : w.OnAir d)
    (hst : (w.clients i).session.state = .handshaking) (now : UInt64) (visits : Client.Visits) :
    ((∃ hello e, helloIn d = some hello ∧ (w.clients i).verifyServerHello C hello = .error e ∧
        e.code = .authFailed) ∨ closeIn d = some .authenticationFailed) ↔
      ¬ w.Fits C i (.client i (.receive d now visits)) := by
  constructor
  · rintro (⟨hello, e, hh, he⟩ | hclose) hfits
    · have hno := (h.verify_error_iff hkx (hhash hello hh) hd hh hst).mp ⟨e, he⟩
      exact hno ((hfits d now visits rfl).1 hello hh)
    · exact (hfits d now visits rfl).2 hclose
  · intro hno
    by_contra hneither
    rw [not_or] at hneither
    refine hno fun d' now' visits' heq => ?_
    cases heq
    refine ⟨fun hello hh => ?_, hneither.2⟩
    by_contra hmade
    obtain ⟨e, he⟩ := (h.verify_error_iff hkx (hhash hello hh) hd hh hst).mpr hmade
    exact hneither.1 ⟨hello, e, hh, he⟩

variable [DecidableEq ι]

/-- In every run, a handshaking client closes for failed authentication exactly if something that
does not fit reaches it. -/
theorem authFailed_iff_not_fits (hkx : C.IdealKx) {w : World ι} (hw : w.Initial) {l : List (Act ι)}
    (hrun : Runs C N l w) (i : ι) (hst : ((w.acts C N l).clients i).session.state = .handshaking)
    (a : Act ι) (ha : (w.acts C N l).Allowed a)
    (hhash : ∀ d hello, a.datagram = some d → helloIn d = some hello →
      C.IdealHash (((w.acts C N l).clients i).compared C (w.acts C N l).server.history hello))
    (hclose : ∀ now, a ≠ .client i (.close now .authenticationFailed)) :
    (((w.acts C N l).act C N a).clients i).AuthFailed ↔ ¬ (w.acts C N l).Fits C i a := by
  have hsound := hrun.sound hw
  generalize w.acts C N l = v at hst ha hhash hsound ⊢
  have hself := Client.not_authFailed_of_handshaking hst
  cases a with
  | server a =>
    refine iff_of_false hself (not_not.mpr ?_)
    intro d now visits h
    cases h
  | client j a =>
    by_cases hij : i = j
    · subst hij
      rw [show (v.act C N (.client i a)).clients i = (v.clients i).act C a from
        Function.update_self i _ _]
      cases hd : a.datagram with
      | none =>
        refine iff_of_false (Client.act_not_authFailed hst hd fun now h => ?_) (not_not.mpr ?_)
        · exact hclose now (congrArg _ h)
        · intro d now visits h
          cases h
          cases hd
      | some d =>
        obtain ⟨now, visits, rfl⟩ : ∃ now visits, a = .receive d now visits := by
          cases a <;> cases hd
          exact ⟨_, _, rfl⟩
        have hopen := (hsound.clients i).socket hst
        change (if (v.clients i).net.sockOpen then (v.clients i).receive C d now visits
          else v.clients i).AuthFailed ↔ _
        rw [if_pos hopen, Client.receive_authFailed_iff (hsound.clients i).tame hst]
        exact hsound.turned_down_iff hkx (fun hello => hhash d hello hd) (ha d hd) hst now visits
    · rw [show (v.act C N (.client j a)).clients i = v.clients i from
        Function.update_of_ne hij _ _]
      refine iff_of_false hself (not_not.mpr ?_)
      intro d now visits h
      cases h
      exact absurd rfl hij

/-! ### Two retries -/

/-- The hello reaches the server twice, and the client answers the first retry. -/
def twice : List (Act Unit) :=
  let retries := greet ++ [.server (.receive loopback (fromClient greet 0) 1000 {}),
    .server (.receive loopback (fromClient greet 0) 1001 {}),
    .server (.visit 1001 0 .sent), .server (.visit 1001 0 .sent)]
  retries ++ [.client () (.receive (fromServer retries 0) 1002 [(1002, .sent)])]

/-- The server answers the hello with the first token, and the second retry arrives. -/
def overtaken : List (Act Unit) := twice ++
  [.server (.receive loopback (fromClient twice 1) 1003 { connIds := [7] }),
    .server (.visit 1003 0 .sent),
    .client () (.receive (fromServer twice 1) 1004 [(1004, .sent)])]

def outdated : ServerHello := (helloIn (fromServer overtaken 2)).get (by decide +kernel)

def confused : World Unit := start.acts .honest .standard overtaken

theorem confused_idealHash : ∀ hello, helloIn (fromServer overtaken 2) = some hello →
    Crypto.honest.IdealHash
      ((confused.clients ()).compared .honest confused.server.history hello) := by
  intro hello hh
  obtain rfl : outdated = hello := Option.get_of_eq_some _ hh
  exact idealHash_of_pair (compared_subset confused.server.history outdated (confused.clients ())
    (outdated.serverPublicKey,
      transcript ((start.acts .honest .standard twice).clients ()).currentHello outdated)
    (by decide +kernel)) fun h => absurd h (by decide +kernel)

/-- The server hello made for the hello with the first token ends the handshake. -/
theorem second_retry_closes :
    Crypto.honest.IdealKx ∧ start.Initial ∧ Runs .honest .standard overtaken start ∧
      (∀ hello, helloIn (fromServer overtaken 2) = some hello → Crypto.honest.IdealHash
        ((confused.clients ()).compared .honest confused.server.history hello)) ∧
      (confused.clients ()).session.state = .handshaking ∧
      confused.OnAir (fromServer overtaken 2) ∧
      ((confused.act .honest .standard
        (.client () (.receive (fromServer overtaken 2) 1005 []))).clients ()).AuthFailed := by
  refine ⟨Crypto.honest_idealKx, start_initial, ?_, confused_idealHash, ?_, ?_, ?_, ?_⟩
  all_goals decide +kernel

/-- The server hello of a handshake without duplicates fits. -/
theorem accept_fits : Runs .honest .standard answer start ∧
    met.Fits .honest () (.client () accept) := by
  have hrun : Runs .honest .standard answer start := by decide +kernel
  have hiff := authFailed_iff_not_fits Crypto.honest_idealKx start_initial hrun ()
    (by decide +kernel) (.client () accept) (by decide +kernel) accept_idealHash
    (fun now h => by cases h)
  refine ⟨hrun, not_not.mp (mt hiff.mpr ?_)⟩
  rintro ⟨hclosed, -⟩
  exact absurd hclosed (by decide +kernel)

end World

end SecureCnet
