import SecureCnet.World.Agreement

/-!
# Duplicates reach an established client

The network may deliver any datagram again. An established client tolerates a second
copy of an encrypted packet, and none of a packet in the clear: a retry or a server hello
that arrives twice ends the connection.
-/

namespace SecureCnet

namespace World

variable {ι : Type} {C : Crypto} {N : InetNtop}

theorem Initial.recalls {w : World ι} (h : w.Initial) (i : ι) : (w.clients i).Recalls C := by
  obtain ⟨config, now, hc⟩ := h.clients i
  rw [hc]
  exact Client.create_recalls config now

variable [DecidableEq ι]

theorem act_recalls {w : World ι} (h : ∀ i, (w.clients i).Recalls C) (a : Act ι) :
    ∀ i, ((w.act C N a).clients i).Recalls C := by
  cases a with
  | server a => exact h
  | client i a =>
    intro j
    change (Function.update w.clients i ((w.clients i).act C a) j).Recalls C
    by_cases hij : j = i
    · subst hij
      rw [Function.update_self]
      exact Client.act_recalls (h j) a
    · rw [Function.update_of_ne hij]
      exact h j

theorem acts_recalls {w : World ι} (h : ∀ i, (w.clients i).Recalls C) (l : List (Act ι)) :
    ∀ i, ((w.acts C N l).clients i).Recalls C := by
  induction l generalizing w with
  | nil => exact h
  | cons a l ih => exact ih (act_recalls h a)

/-- In every run, a copy of a datagram that an established client has received since it connected,
or any datagram in the clear, leaves the client alone exactly when it is an encrypted packet. -/
theorem copy_unmoved_iff {w : World ι} (hw : w.Initial) (l : List (Act ι)) (i : ι)
    (hst : ((w.acts C N l).clients i).session.state = .established) (datagram : Bytes)
    (hcopy : datagram ∈ ((w.acts C N l).clients i).received ∨ isEncrypted datagram = false)
    (now : UInt64) (visits : Client.Visits) :
    ((w.acts C N l).clients i).Unmoved
        (((w.acts C N l).clients i).receive C datagram now visits) ↔
      isEncrypted datagram = true :=
  (acts_recalls hw.recalls l i).unmoved_iff hst hcopy now visits

def joined : List (Act Unit) := answer ++ [.client () accept]

/-- A second copy of the retry closes the established client. -/
theorem retry_copy_closes :
    Runs .honest .standard joined start ∧
      ((start.acts .honest .standard joined).clients ()).session.state = .established ∧
      fromServer retry 0 ∈ (start.acts .honest .standard joined).server.sentDatagrams ∧
      fromServer retry 0 ∈ ((start.acts .honest .standard joined).clients ()).received ∧
      (((start.acts .honest .standard joined).clients ()).receive .honest (fromServer retry 0)
        1005 []).session.state = .closed := by
  decide +kernel

/-- The keepalive of the client establishes the session, and the server sends a payload. -/
def talk : List (Act Unit) :=
  let greeted := joined ++ [.client () (.visit 1005 .sent)]
  greeted ++ [.server (.receive loopback (fromClient greeted 2) 1006 {}),
    .server (.sendPayload loopback 7 [42]), .server (.visit 1007 0 .sent)]

def heard : List (Act Unit) := talk ++ [.client () (.receive (fromServer talk 2) 1008 [])]

/-- A second copy of the payload is dropped. -/
theorem payload_copy_unmoved :
    Runs .honest .standard heard start ∧
      ((start.acts .honest .standard heard).clients ()).Unmoved
        (((start.acts .honest .standard heard).clients ()).receive .honest (fromServer talk 2)
          1009 []) := by
  refine ⟨by decide +kernel, ?_⟩
  exact (copy_unmoved_iff start_initial heard () (by decide +kernel) (fromServer talk 2)
    (Or.inl (by decide +kernel)) 1009 []).mpr (by decide +kernel)

end World

end SecureCnet
