import SecureCnet.Wire.Message

/-!
# Requests and replies

A request frame carries an id; the reply repeats it. The table of a client keeps the
requests that have no answer yet. Every request has a promise, which is identified here
with the id of the request, and `settled` records each time a promise is set.
-/

namespace SecureCnet

open ByteReader

inductive RequestReplyKind
  | request | response | error
  deriving DecidableEq, Repr

namespace RequestReplyKind

def code : RequestReplyKind → UInt8
  | request => 1
  | response => 2
  | error => 3

/-- The cast of the reader with `request_reply_kind_valid`. -/
def ofCode (b : UInt8) : Option RequestReplyKind :=
  if b = 1 then some request else if b = 2 then some response else if b = 3 then some error
  else none

theorem code_of_ofCode {b : UInt8} {kind : RequestReplyKind} (h : ofCode b = some kind) :
    b = kind.code := by
  unfold ofCode at h
  split_ifs at h <;> cases h <;> assumption

end RequestReplyKind

structure RequestReplyFrame where
  kind : RequestReplyKind
  requestId : UInt64
  type : UInt8
  data : Bytes
  deriving DecidableEq, Repr

/-- What a reply makes of its request. -/
def RequestReplyFrame.outcome (frame : RequestReplyFrame) : Result Bytes :=
  if frame.kind = .error then fail .protocolError "remote request error" else .ok frame.data

structure RequestReplyOptions where
  envelopeType : UInt8 := 250
  requestSend : SendOptions := { channel := .reliableOrdered }

def requestReplyHeaderBytes : ℕ := 13

def makeRequestReplyFrame (kind : RequestReplyKind) (requestId : UInt64) (type : UInt8)
    (payload : Bytes) : Result Bytes :=
  if requestId = 0 then fail .invalidArg "request/reply id zero is reserved"
  else if 0xFFFF < payload.length then fail .tooLarge "request/reply payload too large"
  else do
    let w ← (⟨requestReplyHeaderBytes + payload.length, []⟩ : ByteWriter).writeU8 1
    let w ← w.writeU8 kind.code
    let w ← w.writeU64 requestId
    let w ← w.writeU8 type
    let w ← w.writeU16 (UInt16.ofNat payload.length)
    let w ← w.writeBytes payload
    return w.out

def readRequestReplyFrame (bytes : Bytes) : Result RequestReplyFrame :=
  if bytes.length < requestReplyHeaderBytes then fail .badPacket "truncated request/reply frame"
  else do
    let (version, r) ← readU8 bytes
    let (rawKind, r) ← readU8 r
    let (requestId, r) ← readU64 r
    let (type, r) ← readU8 r
    let (len, r) ← readU16 r
    if version ≠ 1 then fail .unsupportedVersion "unsupported request/reply frame version"
    else match RequestReplyKind.ofCode rawKind with
      | none => fail .badPacket "invalid request/reply frame kind"
      | some kind =>
        if requestId = 0 then fail .badPacket "request/reply id zero is invalid"
        else if len.toNat ≠ r.length then fail .badPacket "request/reply payload length mismatch"
        else return ⟨kind, requestId, type, r⟩

/-- The frame in a message of the envelope type. -/
def readRequestReplyMsg (envelopeType : UInt8) (msg : MsgView) : Result RequestReplyFrame :=
  if msg.type ≠ envelopeType then fail .protocolError "message is not a request/reply envelope"
  else readRequestReplyFrame msg.data

/-- What the reader accepts is what the writer makes. -/
theorem make_of_readRequestReplyFrame {bytes : Bytes} {frame : RequestReplyFrame}
    (h : readRequestReplyFrame bytes = .ok frame) :
    makeRequestReplyFrame frame.kind frame.requestId frame.type frame.data = .ok bytes := by
  unfold readRequestReplyFrame at h
  simp only [Result.guard_eq_ok, Result.bind_eq_ok, Prod.exists] at h
  obtain ⟨-, version, r₁, h₁, rawKind, r₂, h₂, id, r₃, h₃, type, r₄, h₄, len, r₅, h₅, hversion, h⟩ :=
    h
  obtain rfl := readU8_eq_ok.mp h₁
  obtain rfl := readU8_eq_ok.mp h₂
  obtain rfl := readU64_eq_ok.mp h₃
  obtain rfl := readU8_eq_ok.mp h₄
  obtain rfl := readU16_eq_ok.mp h₅
  cases hkind : RequestReplyKind.ofCode rawKind with
  | none => simp [hkind] at h
  | some kind =>
    simp only [hkind, Result.guard_eq_ok] at h
    obtain ⟨hid, hlen, hframe⟩ := h
    cases hframe
    rw [not_not] at hversion hlen
    have hshort : ¬0xFFFF < r₅.length := by
      have := len.toNat_lt
      omega
    have hlen' : UInt16.ofNat r₅.length = len := by rw [← hlen, UInt16.ofNat_toNat]
    rw [makeRequestReplyFrame, if_neg hid, if_neg hshort]
    unfold ByteWriter.writeU8 ByteWriter.writeU16 ByteWriter.writeU64
    simp only [ByteWriter.writeBytes_bind_bind]
    rw [ByteWriter.writeBytes_fresh, if_pos (by simp [requestReplyHeaderBytes]; omega), hversion,
      RequestReplyKind.code_of_ofCode hkind, hlen']
    simp

/-! ### The table -/

namespace RequestIdSource

def next (n : UInt64) : UInt64 × UInt64 := if n = 0 then (n + 1, n + 1 + 1) else (n, n + 1)

end RequestIdSource

structure PendingRequest where
  id : UInt64
  expiresAtMs : UInt64
  deriving DecidableEq, Repr

structure ClientRequestTable where
  options : RequestReplyOptions := {}
  ids : UInt64 := 1
  pending : List PendingRequest := []
  /-- The ids of all promises ever made. -/
  promises : List UInt64 := []
  /-- The calls of `set_value`, in their order. -/
  settled : List (UInt64 × Result Bytes) := []

structure RouteResult where
  handled : Bool
  rc : Result Unit
  deriving DecidableEq

namespace ClientRequestTable

/-- Set the promises of the requests that are `due` and drop these requests. -/
def settle (due : PendingRequest → Bool) (outcome : Result Bytes) (t : ClientRequestTable) :
    ClientRequestTable :=
  { t with
    pending := t.pending.filter fun p => !due p
    settled := t.settled ++ (t.pending.filter due).map fun p => (p.id, outcome) }

def emplace (id expiresAtMs : UInt64) (t : ClientRequestTable) : ClientRequestTable :=
  if t.pending.any (·.id = id) then t else { t with pending := t.pending ++ [⟨id, expiresAtMs⟩] }

/-- `send` is what `client.send` returns for the frame. -/
def request (send : SendOptions → UInt8 → Bytes → Result Unit) (type : UInt8) (payload : Bytes)
    (timeoutMs now : UInt64) (t : ClientRequestTable) : Result UInt64 × ClientRequestTable :=
  let (id, ids) := RequestIdSource.next t.ids
  let t := { t with ids }
  match makeRequestReplyFrame .request id type payload with
  | .error e => (.error e, t)
  | .ok frame =>
    let t := { t with promises := t.promises ++ [id] }
    let t := t.emplace id (if timeoutMs = 0 then 0 else now + timeoutMs)
    match send t.options.requestSend t.options.envelopeType frame with
    | .error e => (.error e, t.settle (·.id = id) (.error e))
    | .ok () => (.ok id, t)

def dispatch (msg : MsgView) (t : ClientRequestTable) : RouteResult × ClientRequestTable :=
  if msg.type ≠ t.options.envelopeType then (⟨false, .ok ()⟩, t)
  else
    match readRequestReplyMsg t.options.envelopeType msg with
    | .error e => (⟨true, .error e⟩, t)
    | .ok frame =>
      if frame.kind ≠ .response ∧ frame.kind ≠ .error then (⟨false, .ok ()⟩, t)
      else if !t.pending.any (·.id = frame.requestId) then
        (⟨true, fail .protocolError "response for unknown request id"⟩, t)
      else
        (⟨true, .ok ()⟩, t.settle (·.id = frame.requestId) frame.outcome)

/-- The number of requests that timed out, and the table without them. -/
def expire (now : UInt64) (t : ClientRequestTable) : ℕ × ClientRequestTable :=
  let due (p : PendingRequest) : Bool := p.expiresAtMs ≠ 0 && p.expiresAtMs ≤ now
  ((t.pending.filter due).length, t.settle due (fail .timeout "request timed out"))

def cancelAll (code : Errc) (msg : String) (t : ClientRequestTable) : ClientRequestTable :=
  t.settle (fun _ => true) (fail code msg)

inductive Call
  | request (send : SendOptions → UInt8 → Bytes → Result Unit) (type : UInt8) (payload : Bytes)
      (timeoutMs now : UInt64)
  | dispatch (msg : MsgView)
  | expire (now : UInt64)
  | cancelAll (code : Errc) (msg : String)

def call (t : ClientRequestTable) : Call → ClientRequestTable
  | .request send type payload timeoutMs now => (t.request send type payload timeoutMs now).2
  | .dispatch msg => (t.dispatch msg).2
  | .expire now => (t.expire now).2
  | .cancelAll code msg => t.cancelAll code msg

def calls (l : List Call) (t : ClientRequestTable) : ClientRequestTable := l.foldl call t

def Call.isRequest : Call → Bool
  | .request .. => true
  | _ => false

/-! ### Invariant -/

/-- After `n` requests every promise belongs to a pending request or was set, once. -/
structure Sound (n : ℕ) (t : ClientRequestTable) : Prop where
  ids : t.ids = UInt64.ofNat (n + 1)
  promises_le : ∀ id ∈ t.promises, id ≠ 0 ∧ id.toNat ≤ n
  nodup : t.promises.Nodup
  split : t.promises.Perm (t.pending.map PendingRequest.id ++ t.settled.map Prod.fst)

variable {t : ClientRequestTable} {n : ℕ}

theorem Sound.settle (h : t.Sound n) (due : PendingRequest → Bool) (outcome : Result Bytes) :
    (t.settle due outcome).Sound n := by
  refine ⟨h.ids, h.promises_le, h.nodup, h.split.trans ?_⟩
  have hparts := (List.filter_append_perm due t.pending).map PendingRequest.id
  simp only [ClientRequestTable.settle, List.map_append, List.map_map, Function.comp_def] at hparts ⊢
  -- What is due moves behind what was settled before.
  apply (hparts.symm.append_right _).trans
  rw [List.append_assoc, ← List.append_assoc (List.map _ (List.filter (fun p => !due p) _))]
  exact List.perm_append_comm

theorem next_ofNat (hn : n + 1 < 2 ^ 64) :
    RequestIdSource.next (UInt64.ofNat (n + 1)) =
      (UInt64.ofNat (n + 1), UInt64.ofNat (n + 1 + 1)) := by
  have hne : UInt64.ofNat (n + 1) ≠ 0 := by
    intro h
    have := congrArg UInt64.toNat h
    rw [UInt64.toNat_ofNat', Nat.mod_eq_of_lt hn] at this
    simp at this
  rw [RequestIdSource.next, if_neg hne]
  simp [UInt64.ofNat_add]

theorem Sound.request (h : t.Sound n) (hn : n + 1 < 2 ^ 64)
    (send : SendOptions → UInt8 → Bytes → Result Unit) (type : UInt8) (payload : Bytes)
    (timeoutMs now : UInt64) : (t.request send type payload timeoutMs now).2.Sound (n + 1) := by
  unfold ClientRequestTable.request
  rw [h.ids, next_ofNat hn]
  generalize hid : UInt64.ofNat (n + 1) = id
  have htoNat : id.toNat = n + 1 := by rw [← hid, UInt64.toNat_ofNat', Nat.mod_eq_of_lt hn]
  have hfresh : id ∉ t.promises := fun hmem => by
    have := (h.promises_le id hmem).2
    omega
  have hold : ∀ id ∈ t.promises, id ≠ 0 ∧ id.toNat ≤ n + 1 :=
    fun id hmem => ⟨(h.promises_le id hmem).1, Nat.le_succ_of_le (h.promises_le id hmem).2⟩
  dsimp only
  cases makeRequestReplyFrame .request id type payload with
  | error e => exact ⟨rfl, hold, h.nodup, h.split⟩
  | ok frame =>
    have hnew : ∀ expires, (({ t with
        ids := UInt64.ofNat (n + 1 + 1)
        promises := t.promises ++ [id] } : ClientRequestTable).emplace id expires).Sound (n + 1) := by
      intro expires
      have habsent : t.pending.any (·.id = id) = false := by
        rw [List.any_eq_false]
        intro p hp heq
        apply hfresh
        rw [← of_decide_eq_true heq]
        exact h.split.mem_iff.mpr (List.mem_append_left _ (List.mem_map_of_mem hp))
      unfold emplace
      dsimp only
      rw [habsent]
      refine ⟨rfl, ?_, ?_, ?_⟩
      · intro id' hmem
        rcases List.mem_append.mp hmem with hmem | hmem
        · exact hold id' hmem
        · rw [List.mem_singleton.mp hmem]
          refine ⟨fun hzero => ?_, htoNat.le⟩
          rw [hzero] at htoNat
          simp at htoNat
      · exact List.nodup_append.mpr ⟨h.nodup, List.nodup_singleton id, fun id' hmem id'' hnew heq =>
          hfresh (List.mem_singleton.mp hnew ▸ heq ▸ hmem)⟩
      · simp only [Bool.false_eq_true, if_false, List.map_append, List.map_cons, List.map_nil]
        apply (h.split.append_right [id]).trans
        rw [List.append_assoc, List.append_assoc]
        exact List.perm_append_comm.append_left _
    dsimp only
    split
    · exact (hnew _).settle _ _
    · exact hnew _

theorem dispatch_cases (msg : MsgView) (t : ClientRequestTable) :
    (t.dispatch msg).2 = t ∨
      ∃ frame, readRequestReplyMsg t.options.envelopeType msg = .ok frame ∧
        frame.kind ≠ .request ∧ (∃ p ∈ t.pending, p.id = frame.requestId) ∧
        (t.dispatch msg).2 = t.settle (·.id = frame.requestId) frame.outcome := by
  unfold dispatch
  split_ifs
  · exact Or.inl rfl
  · cases hread : readRequestReplyMsg t.options.envelopeType msg with
    | error e => exact Or.inl rfl
    | ok frame =>
      dsimp only
      split_ifs with hkind hpending
      · exact Or.inl rfl
      · exact Or.inl rfl
      · refine Or.inr ⟨frame, rfl, fun h => hkind (by simp [h]), ?_, rfl⟩
        simpa using hpending

theorem Sound.call (h : t.Sound n) {c : Call} (hn : n + (if c.isRequest then 1 else 0) < 2 ^ 64) :
    (t.call c).Sound (n + if c.isRequest then 1 else 0) := by
  cases c with
  | request send type payload timeoutMs now => exact h.request hn send type payload timeoutMs now
  | dispatch msg =>
    change (t.dispatch msg).2.Sound n
    rcases dispatch_cases msg t with hsame | ⟨frame, -, -, -, hsettle⟩
    · rwa [hsame]
    · rw [hsettle]
      exact h.settle _ _
  | expire now => exact h.settle _ _
  | cancelAll code msg => exact h.settle _ _

theorem Sound.calls (h : t.Sound n) {l : List Call} (hn : n + l.countP Call.isRequest < 2 ^ 64) :
    (t.calls l).Sound (n + l.countP Call.isRequest) := by
  induction l generalizing t n with
  | nil => exact h
  | cons c l ih =>
    rw [List.countP_cons, Nat.add_comm (List.countP _ l), ← Nat.add_assoc] at hn ⊢
    exact ih (h.call (by omega)) hn

/-! ### Outcomes -/

theorem mem_settle {due : PendingRequest → Bool} {outcome : Result Bytes}
    {x : UInt64 × Result Bytes} (h : x ∈ (t.settle due outcome).settled) :
    x ∈ t.settled ∨ ∃ p, due p = true ∧ x = (p.id, outcome) := by
  rcases List.mem_append.mp h with hold | hnew
  · exact Or.inl hold
  · obtain ⟨p, hp, rfl⟩ := List.mem_map.mp hnew
    exact Or.inr ⟨p, (List.mem_filter.mp hp).2, rfl⟩

/-- A reply with the payload came while the request was pending. -/
def Answers (t : ClientRequestTable) (id : UInt64) (payload : Bytes) (msg : MsgView) : Prop :=
  msg.type = t.options.envelopeType ∧
    (∃ type, makeRequestReplyFrame .response id type payload = .ok msg.data) ∧
    ∃ p ∈ t.pending, p.id = id

variable {id : UInt64} {payload : Bytes}

theorem success_of_request {send : SendOptions → UInt8 → Bytes → Result Unit} {type : UInt8}
    {body : Bytes} {timeoutMs now : UInt64}
    (h : (id, .ok payload) ∈ (t.request send type body timeoutMs now).2.settled) :
    (id, .ok payload) ∈ t.settled := by
  have hplace : ∀ (t : ClientRequestTable) id expires, (t.emplace id expires).settled = t.settled := by
    intro t id expires
    unfold emplace
    split_ifs <;> rfl
  unfold request at h
  dsimp only at h
  split at h
  · exact h
  · split at h
    · rcases mem_settle h with hold | ⟨p, -, heq⟩
      · rwa [hplace] at hold
      · cases heq
    · rwa [hplace] at h

theorem success_of_call {c : Call} (h : (id, .ok payload) ∈ (t.call c).settled) :
    (id, .ok payload) ∈ t.settled ∨ ∃ msg, c = .dispatch msg ∧ t.Answers id payload msg := by
  cases c with
  | request send type body timeoutMs now => exact Or.inl (success_of_request h)
  | dispatch msg =>
    change (id, .ok payload) ∈ (t.dispatch msg).2.settled at h
    rcases dispatch_cases msg t with hsame | ⟨frame, hread, hkind, hpending, hsettle⟩
    · rw [hsame] at h
      exact Or.inl h
    · rw [hsettle] at h
      rcases mem_settle h with hold | ⟨p, hdue, heq⟩
      · exact Or.inl hold
      · obtain ⟨hid, houtcome⟩ := Prod.mk.inj heq
        rw [of_decide_eq_true hdue] at hid
        unfold RequestReplyFrame.outcome at houtcome
        split_ifs at houtcome with herror
        · cases houtcome
        · obtain rfl := Except.ok.inj houtcome
          have hresponse : frame.kind = .response := by
            cases hk : frame.kind <;> simp_all
          unfold readRequestReplyMsg at hread
          rw [Result.guard_eq_ok, not_not] at hread
          have hmake := make_of_readRequestReplyFrame hread.2
          rw [hresponse] at hmake
          exact Or.inr ⟨msg, rfl, hread.1, ⟨frame.type, hid ▸ hmake⟩, hid ▸ hpending⟩
  | expire now =>
    rcases mem_settle h with hold | ⟨p, -, heq⟩
    · exact Or.inl hold
    · cases heq
  | cancelAll code msg =>
    rcases mem_settle h with hold | ⟨p, -, heq⟩
    · exact Or.inl hold
    · cases heq

theorem success_of_calls {l : List Call} (h : (id, .ok payload) ∈ (t.calls l).settled) :
    (id, .ok payload) ∈ t.settled ∨
      ∃ before msg after, l = before ++ .dispatch msg :: after ∧
        (t.calls before).Answers id payload msg := by
  induction l generalizing t with
  | nil => exact Or.inl h
  | cons c l ih =>
    rcases ih h with hold | ⟨before, msg, after, rfl, hanswers⟩
    · rcases success_of_call hold with hold | ⟨msg, rfl, hanswers⟩
      · exact Or.inl hold
      · exact Or.inr ⟨[], msg, l, rfl, hanswers⟩
    · exact Or.inr ⟨c :: before, msg, after, rfl, hanswers⟩

theorem dispatch_unanswered {msg : MsgView}
    (h : ∀ frame, readRequestReplyMsg t.options.envelopeType msg = .ok frame →
      frame.kind = .request ∨ ∀ p ∈ t.pending, p.id ≠ frame.requestId) :
    (t.dispatch msg).2 = t := by
  rcases dispatch_cases msg t with hsame | ⟨frame, hread, hkind, ⟨p, hp, hid⟩, -⟩
  · exact hsame
  · rcases h frame hread with hrequest | hunknown
    · exact absurd hrequest hkind
    · exact absurd hid (hunknown p hp)

/-- Whatever calls are made, no promise is set twice, the requests whose promise is not set are
exactly the pending ones, and a success comes from a reply to a pending request. Messages that are
no reply to a pending request change nothing. -/
theorem requests_complete_once (options : RequestReplyOptions) {l : List Call}
    (hn : l.countP Call.isRequest < 2 ^ 64) :
    let t := calls l { options }
    t.promises.Nodup ∧ (t.settled.map Prod.fst).Nodup ∧ (t.pending.map PendingRequest.id).Nodup ∧
      (∀ p ∈ t.pending, p.id ≠ 0 ∧ p.id ∈ t.promises) ∧
      (∀ id ∈ t.promises, id ∈ t.pending.map PendingRequest.id ↔ id ∉ t.settled.map Prod.fst) ∧
      (∀ id payload, (id, .ok payload) ∈ t.settled →
        ∃ before msg after, l = before ++ .dispatch msg :: after ∧
          (calls before { options }).Answers id payload msg) ∧
      ∀ msg, (∀ frame, readRequestReplyMsg t.options.envelopeType msg = .ok frame →
        frame.kind = .request ∨ ∀ p ∈ t.pending, p.id ≠ frame.requestId) →
        (t.dispatch msg).2 = t := by
  have hfresh : ({ options } : ClientRequestTable).Sound 0 :=
    ⟨rfl, by simp, List.nodup_nil, List.Perm.nil⟩
  have hsound := hfresh.calls (l := l) (by rwa [Nat.zero_add])
  intro t
  have hparts : (t.pending.map PendingRequest.id ++ t.settled.map Prod.fst).Nodup :=
    hsound.split.nodup_iff.mp hsound.nodup
  obtain ⟨hpending, hsettled, hdisjoint⟩ := List.nodup_append.mp hparts
  refine ⟨hsound.nodup, hsettled, hpending, ?_, ?_, ?_, fun msg => dispatch_unanswered⟩
  · intro p hp
    have hmem : p.id ∈ t.promises :=
      hsound.split.mem_iff.mpr (List.mem_append_left _ (List.mem_map_of_mem hp))
    exact ⟨(hsound.promises_le _ hmem).1, hmem⟩
  · intro id hmem
    constructor
    · exact fun hin hout => hdisjoint id hin id hout rfl
    · exact (List.mem_append.mp (hsound.split.mem_iff.mp hmem)).resolve_right
  · intro id payload hmem
    rcases success_of_calls hmem with hnone | hanswered
    · cases hnone
    · exact hanswered

/-- Two requests; the first is answered, the second times out. -/
def twoRequests : List Call :=
  [.request (fun _ _ _ => .ok ()) 5 [1] 5000 100, .request (fun _ _ _ => .ok ()) 5 [2] 5000 200,
    .dispatch ⟨.reliableOrdered, 250, (makeRequestReplyFrame .response 1 5 [9]).toOption.getD []⟩,
    .expire 5200]

theorem two_requests_complete_once :
    (calls twoRequests {}).settled = [(1, .ok [9]), (2, fail .timeout "request timed out")] ∧
      (∃ before msg after, twoRequests = before ++ .dispatch msg :: after ∧
        (calls before {}).Answers 1 [9] msg) := by
  have hsettled : (calls twoRequests {}).settled =
      [(1, .ok [9]), (2, fail .timeout "request timed out")] := by decide +kernel
  have hn : twoRequests.countP Call.isRequest < 2 ^ 64 := by decide
  obtain ⟨-, -, -, -, -, hsuccess, -⟩ := requests_complete_once {} hn
  exact ⟨hsettled, hsuccess 1 [9] (by rw [hsettled]; simp)⟩

end ClientRequestTable

end SecureCnet
