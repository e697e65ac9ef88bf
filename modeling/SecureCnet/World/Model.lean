import SecureCnet.Client.Effects
import SecureCnet.Server.Validation

/-!
# Clients, a server, and the network between them

Any number of clients and one server take turns, one act at a time. The network
hands out datagrams that somebody sent, to anyone, any number of times, in any order
and under any source address; it makes up none. What was sent is never forgotten,
also when a client reconnects.
-/

namespace SecureCnet

namespace Server

/-- The datagrams handed to the socket. -/
def sentDatagrams (srv : Server) : List Bytes :=
  srv.history.filterMap fun
    | .sent pkt => some pkt.bytes
    | _ => none

end Server

structure World (ι : Type) where
  clients : ι → Client
  server : Server

namespace World

inductive Act (ι : Type)
  | client (i : ι) (a : Client.Act)
  | server (a : Server.Act)

variable {ι : Type} (C : Crypto) (N : InetNtop)

/-- Somebody sent the datagram. -/
def OnAir (w : World ι) (datagram : Bytes) : Prop :=
  (∃ i, datagram ∈ (w.clients i).wire) ∨ datagram ∈ w.server.sentDatagrams

/-- The datagram an act takes from the network. -/
def Act.datagram : Act ι → Option Bytes
  | .client _ a => a.datagram
  | .server a => a.datagram

def Allowed (w : World ι) (a : Act ι) : Prop := ∀ d, a.datagram = some d → w.OnAir d

def act [DecidableEq ι] (a : Act ι) (w : World ι) : World ι :=
  match a with
  | .client i a => { w with clients := Function.update w.clients i ((w.clients i).act C a) }
  | .server a => { w with server := w.server.act C N a }

def acts [DecidableEq ι] (l : List (Act ι)) (w : World ι) : World ι :=
  l.foldl (fun w a => w.act C N a) w

/-- Every act of the list is one the network allows when its turn comes. -/
def Runs [DecidableEq ι] : List (Act ι) → World ι → Prop
  | [], _ => True
  | a :: l, w => w.Allowed a ∧ Runs l (w.act C N a)

/-- Clients and server as they are constructed. -/
structure Initial (w : World ι) : Prop where
  clients : ∀ i, ∃ config now, w.clients i = .create config now
  server : ∃ config, w.server = { config }

instance [Fintype ι] (w : World ι) (d : Bytes) : Decidable (w.OnAir d) :=
  inferInstanceAs (Decidable (_ ∨ _))

instance [Fintype ι] (w : World ι) (a : Act ι) : Decidable (w.Allowed a) :=
  match h : a.datagram with
  | none => isTrue fun d hd => by rw [h] at hd; cases hd
  | some d => decidable_of_iff (w.OnAir d) ⟨fun hd d' h' => by rw [h] at h'; cases h'; exact hd,
      fun hall => hall d h⟩

instance decidableRuns [DecidableEq ι] [Fintype ι] :
    (l : List (Act ι)) → (w : World ι) → Decidable (Runs C N l w)
  | [], _ => isTrue trivial
  | a :: l, w => @instDecidableAnd _ _ _ (decidableRuns l (w.act C N a))

variable [DecidableEq ι] {C N} {w : World ι} {l : List (Act ι)}

theorem Runs.preserves {P : World ι → Prop} (hP : ∀ w a, w.Allowed a → P w → P (w.act C N a))
    (h : Runs C N l w) (hw : P w) : P (w.acts C N l) := by
  induction l generalizing w with
  | nil => exact hw
  | cons a l ih => exact ih h.2 (hP w a h.1 hw)

end World

/-! ### What was sent stays sent -/

theorem Client.Change.wire {C : Crypto} {H : ServerHello → SessionKeys → Prop} {c c' : Client}
    (h : Change C H c c') : c.wire ⊆ c'.wire := by
  rcases h.cases with ⟨p, rfl, -⟩ | hquiet | ⟨hello, keys, now, p, rfl, -⟩
  · exact List.Subset.refl _
  · exact hquiet.wire
  · exact List.Subset.refl _

theorem Client.Steps.wire {C : Crypto} {H : ServerHello → SessionKeys → Prop} {c c' : Client}
    (h : Steps C H c c') : c.wire ⊆ c'.wire := by
  induction h with
  | refl => exact List.Subset.refl _
  | tail _ hchange ih => exact List.Subset.trans ih hchange.wire

theorem Client.act_wire {C : Crypto} {c : Client} (hc : c.Tame) (a : Act) :
    c.wire ⊆ (c.act C a).wire := by
  rcases act_cases (C := C) hc a with h | h | ⟨c₀, hb, h⟩
  · have hsub := h.wire
    rw [noting_eq] at hsub
    exact hsub
  · rw [h.wire]
    exact List.Subset.refl _
  · rw [← hb.wire]
    exact h.wire

theorem Server.act_sentDatagrams {C : Crypto} {N : InetNtop} (a : Act) (srv : Server) :
    srv.sentDatagrams ⊆ (srv.act C N a).sentDatagrams := by
  obtain ⟨es, hes, -⟩ := (act_steps (C := C) (N := N) a srv).admitting
  unfold sentDatagrams
  rw [hes, List.filterMap_append]
  exact List.subset_append_left _ _

namespace World

variable {ι : Type} [DecidableEq ι] {C : Crypto} {N : InetNtop} {w : World ι}

theorem OnAir.act {d : Bytes} (hd : w.OnAir d) (hw : ∀ i, (w.clients i).Tame) (a : Act ι) :
    (w.act C N a).OnAir d := by
  cases a with
  | server a => exact hd.imp id fun hs => Server.act_sentDatagrams a w.server hs
  | client i a =>
    refine hd.imp ?_ id
    rintro ⟨j, hj⟩
    refine ⟨j, ?_⟩
    change d ∈ (Function.update w.clients i ((w.clients i).act C a) j).wire
    by_cases hij : j = i
    · subst hij
      rw [Function.update_self]
      exact Client.act_wire (hw j) a hj
    · rw [Function.update_of_ne hij]
      exact hj

theorem act_tame (hw : ∀ i, (w.clients i).Tame) (a : Act ι) :
    ∀ i, ((w.act C N a).clients i).Tame := by
  cases a with
  | server a => exact hw
  | client i a =>
    intro j
    change (Function.update w.clients i ((w.clients i).act C a) j).Tame
    by_cases hij : j = i
    · subst hij
      rw [Function.update_self]
      exact Client.act_tame (hw j) a
    · rw [Function.update_of_ne hij]
      exact hw j

theorem runs_of_onAir {l : List (Act ι)} (hw : ∀ i, (w.clients i).Tame)
    (hl : ∀ a ∈ l, ∀ d, a.datagram = some d → w.OnAir d) : Runs C N l w := by
  induction l generalizing w with
  | nil => trivial
  | cons a l ih =>
    obtain ⟨ha, hrest⟩ := List.forall_mem_cons.mp hl
    refine ⟨ha, ih (act_tame hw a) ?_⟩
    exact fun a' ha' d hd => (hrest a' ha' d hd).act hw a

/-- A call of a client whose arrivals are on the air is a run. -/
theorem client_step_runs (i : ι) (op : Client.Op) (hw : ∀ i, (w.clients i).Tame)
    (hop : ∀ d ∈ op.datagrams, w.OnAir d) :
    ∃ l, Runs C N l w ∧ w.acts C N l =
      { w with clients := Function.update w.clients i ((w.clients i).step C op) } := by
  obtain ⟨l, hl, htakes⟩ := Client.step_acts (C := C) op (hw i)
  refine ⟨l.map (.client i), runs_of_onAir hw ?_, ?_⟩
  · intro a ha d hd
    obtain ⟨b, hb, rfl⟩ := List.mem_map.mp ha
    exact hop d (htakes b hb d hd)
  · rw [hl]
    clear hl htakes hop
    induction l generalizing w with
    | nil => simp [acts, Client.acts]
    | cons a l ih =>
      have hrest := ih (act_tame (C := C) (N := N) hw (.client i a))
      refine hrest.trans ?_
      simp [act, Client.acts]

theorem server_step_runs (op : Server.Op) (hw : ∀ i, (w.clients i).Tame)
    (hop : ∀ d ∈ op.datagrams, w.OnAir d) :
    ∃ l, Runs C N l w ∧ w.acts C N l = { w with server := w.server.step C N op } := by
  obtain ⟨l, hl, htakes⟩ := Server.step_acts (C := C) (N := N) op w.server
  refine ⟨l.map .server, runs_of_onAir hw ?_, ?_⟩
  · intro a ha d hd
    obtain ⟨b, hb, rfl⟩ := List.mem_map.mp ha
    exact hop d (htakes b hb d hd)
  · rw [hl]
    clear hl htakes hop
    induction l generalizing w with
    | nil => rfl
    | cons a l ih => exact ih (act_tame (C := C) (N := N) hw (.server a))

/-! ### Runs of whole calls -/

/-- A call of the public interface of a client or of the server. -/
inductive Op (ι : Type)
  | client (i : ι) (op : Client.Op)
  | server (op : Server.Op)

def Op.datagrams : Op ι → List Bytes
  | .client _ op => op.datagrams
  | .server op => op.datagrams

variable (C N) in
def step (op : Op ι) (w : World ι) : World ι :=
  match op with
  | .client i op => { w with clients := Function.update w.clients i ((w.clients i).step C op) }
  | .server op => { w with server := w.server.step C N op }

variable (C N) in
/-- What arrives during a call is on the air when it is made. -/
def Calls : List (Op ι) → World ι → Prop
  | [], _ => True
  | op :: ops, w => (∀ d ∈ op.datagrams, w.OnAir d) ∧ Calls ops (w.step C N op)

theorem Runs.append {l l' : List (Act ι)} (h : Runs C N l w) (h' : Runs C N l' (w.acts C N l)) :
    Runs C N (l ++ l') w := by
  induction l generalizing w with
  | nil => exact h'
  | cons a l ih => exact ⟨h.1, ih h.2 h'⟩

/-- Public calls, made one after the other on clients and server, are a run of the network: what
holds of every run of single acts holds between the calls of an application. -/
theorem calls_are_runs (hw : w.Initial) (ops : List (Op ι)) (h : Calls C N ops w) :
    ∃ l, Runs C N l w ∧ w.acts C N l = ops.foldl (fun w op => w.step C N op) w := by
  have htame : ∀ i, (w.clients i).Tame := by
    intro i
    obtain ⟨config, now, hi⟩ := hw.clients i
    rw [hi]
    exact Client.create_tame config now
  clear hw
  induction ops generalizing w with
  | nil => exact ⟨[], trivial, rfl⟩
  | cons op ops ih =>
    have hcall : ∃ l, Runs C N l w ∧ w.acts C N l = w.step C N op := by
      cases op with
      | client i op => exact client_step_runs i op htame h.1
      | server op => exact server_step_runs op htame h.1
    obtain ⟨l, hl, hstep⟩ := hcall
    have hkeep : ∀ i, ((w.acts C N l).clients i).Tame :=
      hl.preserves (P := fun w => ∀ i, (w.clients i).Tame) (fun _ a _ hw => act_tame hw a) htame
    rw [hstep] at hkeep
    obtain ⟨l', hl', hrest⟩ := ih h.2 hkeep
    refine ⟨l ++ l', hl.append (hstep ▸ hl'), ?_⟩
    rw [List.foldl_cons, ← hrest, ← hstep]
    exact List.foldl_append

/-- A server listens, and a client sends its hello to it. -/
def greeting : List (Op Unit) :=
  [.server (.listen .ready (Block.zero 32)),
    .client () (.connect loopback .ready (Block.zero 32) (Block.zero 16) 1000 [(1000, .sent)])]

def atRest : World Unit := ⟨fun () => .create {} 0, {}⟩

/-- The tick of the server in which the hello arrives. -/
def greetedTick : Op Unit :=
  let w := greeting.foldl (fun w op => w.step .standIn .standard op) atRest
  .server (.tick
    { flushNow := 1010
      reliableNow := 1010
      arrivals := [.datagram loopback ((w.clients ()).wire.headD []) 1010 {}]
      housekeepingNow := 1010 })

/-- A server listens, a client says hello, and the server takes the hello from the air. -/
theorem calls_are_runs_connecting :
    let ops := greeting ++ [greetedTick]
    let w := ops.foldl (fun w op => w.step .standIn .standard op) atRest
    greetedTick.datagrams = (w.clients ()).wire ∧ w.server.onPacket.length = 1 ∧
      ∃ l, Runs .standIn .standard l atRest ∧ atRest.acts .standIn .standard l = w := by
  refine ⟨by decide +kernel, by decide +kernel,
    calls_are_runs ⟨fun _ => ⟨{}, 0, rfl⟩, {}, rfl⟩ _ ⟨?_, ?_, ?_, trivial⟩⟩
  · exact fun _ hd => nomatch hd
  · exact fun _ hd => nomatch hd
  · decide +kernel

end World

end SecureCnet
