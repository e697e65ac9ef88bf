import SecureCnet.Session.Deliver
import SecureCnet.Session.Transparency

/-!
# Ordered frames at the receiver

An ordered frame is acknowledged before the ordered window sees its message, and
a full window is not an error. The message then survives its frame exactly when
the window has a slot for it.
-/

namespace SecureCnet

theorem emitted_of_delivers {s s' : Session} {out : List BufferedMessage}
    (h : s.Delivers (emissions out) s') :
    s'.emitted = s.emitted ++ out.map fun m => ⟨.reliableOrdered, m.1, m.2⟩ := by
  unfold Session.emitted
  rw [h.receipts, filter_emissions, List.filterMap_append, emissions, List.filterMap_map]
  congr 1
  exact congrFun List.filterMap_eq_map out

namespace Party

variable {C : Crypto} {r : Party} {id seq : UInt64} {t : UInt8} {payload : Bytes}

/-- The frame of an inline message on the ordered channel. -/
def orderedFrame (id seq : UInt64) (t : UInt8) (payload : Bytes) : MsgView :=
  ⟨.reliableOrdered, t, be64 id ++ (be64 seq ++ payload)⟩

/-- After the frame of an ordered message its payload is released, stale or stored. -/
def Kept (seq : UInt64) (t : UInt8) (payload : Bytes) (r r' : Party) : Prop :=
  (∃ out, r'.session.emitted = r.session.emitted ++ out ∧
      (⟨.reliableOrdered, t, payload⟩ : MsgView) ∈ out) ∨
    seq < r.session.ordered.nextExpected ∨
    r'.session.ordered.buffer.lookup seq = some (t, payload)

/-- An accepted ordered frame shows its message to the window. -/
theorem dispatch_orderedFrame (now : UInt64) (hid : id ≠ 0) (hseq : seq ≠ 0)
    (hlen : payload.length + 8 ≤ 0xFFFF)
    (huser : ¬(t = ControlType.fragment.code ∧ looksLikeFragment (be64 seq ++ payload) = true))
    (hfresh : (r.session.orderedReliable.received.accept id).1 = true) :
    let r' := r.dispatchMessageFrame C now (orderedFrame id seq t payload)
    r'.session.ordered = (r.session.ordered.accept seq t payload).2 ∧
      r'.session.emitted = r.session.emitted ++
        (OrderedReceiveWindow.released (r.session.ordered.accept seq t payload).1).map fun m =>
          ⟨.reliableOrdered, m.1, m.2⟩ := by
  have hordered : readOrderedPayload (be64 seq ++ payload) = .ok (seq, payload) :=
    readEnvelope_eq_ok.mpr ⟨rfl, hseq, by omega⟩
  have hdisp : r.dispatchMessageFrame C now (orderedFrame id seq t payload) =
      (r.accepting C .reliableOrdered id).dispatchBody C now .reliableOrdered id t
        (be64 seq ++ payload) :=
    (dispatch_reliable now rfl hid (by simp; omega) r).trans (if_pos hfresh)
  have hacc := accepting_spec (C := C) .reliableOrdered id r
  rw [hdisp]
  generalize r.accepting C .reliableOrdered id = q at hacc
  rw [dispatchBody_user now huser, dispatchUserData, if_pos rfl, hordered]
  dsimp only
  obtain ⟨hok, hdel, hord⟩ := Session.deliverApplicationMessage_ordered hseq t payload
    (q.log (.passed .reliableOrdered id t payload)).session
  have hem := emitted_of_delivers hdel
  have hq : (q.log (.passed .reliableOrdered id t payload)).session.ordered = r.session.ordered :=
    hacc.ordered
  have hemq : (q.log (.passed .reliableOrdered id t payload)).session.emitted =
      r.session.emitted := by
    rw [← hacc.emitted]
    simp [log, Event.emittedMessage]
  rw [hq] at hord hem
  rw [hemq] at hem
  unfold onSession
  generalize (q.log (.passed .reliableOrdered id t payload)).session.deliverApplicationMessage
    .reliableOrdered t payload seq = d at hok hord hem hdel
  obtain ⟨rc, s⟩ := d
  cases hok
  exact ⟨hord, hem⟩

/-- An ordered message survives its frame exactly when the window has a slot for it. -/
theorem orderedFrame_kept_iff (now : UInt64) (hid : id ≠ 0) (hseq : seq ≠ 0)
    (hlen : payload.length + 8 ≤ 0xFFFF)
    (huser : ¬(t = ControlType.fragment.code ∧ looksLikeFragment (be64 seq ++ payload) = true))
    (hfresh : (r.session.orderedReliable.received.accept id).1 = true) :
    Kept seq t payload r (r.dispatchMessageFrame C now (orderedFrame id seq t payload)) ↔
      r.session.ordered.HasSlot seq (t, payload) := by
  obtain ⟨hord, hem⟩ := dispatch_orderedFrame (C := C) now hid hseq hlen huser hfresh
  have hmem : (∃ out, r.session.emitted ++ (OrderedReceiveWindow.released
        (r.session.ordered.accept seq t payload).1).map (fun m =>
          (⟨.reliableOrdered, m.1, m.2⟩ : MsgView)) = r.session.emitted ++ out ∧
        (⟨.reliableOrdered, t, payload⟩ : MsgView) ∈ out) ↔
      ∃ out, (r.session.ordered.accept seq t payload).1 = .ok out ∧ (t, payload) ∈ out := by
    cases (r.session.ordered.accept seq t payload).1 <;> simp [OrderedReceiveWindow.released]
  rw [← OrderedReceiveWindow.accept_kept_iff hseq, Kept, hord, hem, hmem]

/-- A server session whose ordered window holds one message, with that one waiting. -/
def narrowServer : Party :=
  dispatchMessageFrame .standIn 5 (orderedFrame 1 3 7 [1])
    { establishedServer with
      side := .server { reliability := { orderedReceiveWindow := 1 } }
      session := { establishedServer.session with ordered := { maxBuffered := 1 } } }

/-- The next message ahead of its turn is acknowledged, accepted and lost. -/
theorem orderedFrame_lost :
    let r' := narrowServer.dispatchMessageFrame .standIn 5 (orderedFrame 2 4 7 [2])
    Event.ackQueued .reliableOrdered 2 ∈ r'.session.trace ∧
      Event.accepted .reliableOrdered 2 ∈ r'.session.trace ∧
      ¬Kept 4 7 [2] narrowServer r' := by
  refine ⟨by decide +kernel, by decide +kernel, ?_⟩
  have hem : (narrowServer.dispatchMessageFrame .standIn 5
      (orderedFrame 2 4 7 [2])).session.emitted = narrowServer.session.emitted := by
    decide +kernel
  rintro (⟨out, hout, hmem⟩ | hlt | hbuf)
  · rw [hem] at hout
    rw [List.self_eq_append_right.mp hout] at hmem
    cases hmem
  · exact absurd hlt (by decide +kernel)
  · exact absurd hbuf (by decide +kernel)

/-- The message the window waits for is kept. -/
theorem orderedFrame_kept_due :
    Kept 1 7 [2] narrowServer
      (narrowServer.dispatchMessageFrame .standIn 5 (orderedFrame 2 1 7 [2])) :=
  (orderedFrame_kept_iff 5 (by decide) (by decide) (by decide) (by decide)
    (by decide +kernel)).mpr (by decide +kernel)

end Party

end SecureCnet
