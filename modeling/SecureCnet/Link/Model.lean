import SecureCnet.Session.Silent

/-!
# Two ends of a session

A link is the two parties of one established session and all datagrams each of
them has ever put on the wire. The network may drop, delay, reorder and duplicate:
a receive step takes any datagram the peer has sent so far, any number of times.
The ends take steps in any order. `sends` records the calls of `send`.
-/

namespace SecureCnet

/-- A call of `send`, with the session before and after it. -/
structure SendRecord where
  options : SendOptions
  type : UInt8
  payload : Bytes
  before : Session
  after : Session
  ok : Bool
  deriving DecidableEq

/-- What can happen at one end of a link. -/
inductive Op
  | send (options : SendOptions) (type : UInt8) (payload : Bytes) (now : UInt64)
  | sendPayload (data : Bytes)
  | pumpReliable (now : UInt64)
  /-- The flush loop visits the packet at position `i`. -/
  | flush (i : ℕ) (now : UInt64) (socket : SocketResult)
  /-- The `i`-th datagram of the peer arrives. -/
  | receive (i : ℕ) (now : UInt64)
  | runHousekeeping (now : UInt64)
  | close (now : UInt64) (reason : CloseReason)
  /-- The session is given up because of some other packet. -/
  | violation (now : UInt64) (reason : CloseReason)
  /-- The other sessions of a server act on the shared queue and memory. -/
  | others (net : Transport) (otherMemory : UInt64)

structure End where
  party : Party
  wire : List Bytes := []
  sends : List SendRecord := []
  deriving DecidableEq

def isHandshake (bytes : Bytes) : Bool :=
  match parsePacket bytes with
  | .ok packet => packet.h.kind = PacketKind.handshake.code
  | .error _ => false

/-- Other sessions of a server leave its own packets alone or drop them; the server may
answer a repeated handshake on behalf of the session. -/
def Party.othersMay (net : Transport) (p : Party) : Bool :=
  match p.side with
  | .client _ => false
  | .server _ => net.sockOpen = p.net.sockOpen && net.pending.all fun pkt =>
      pkt.ownerConnId ≠ p.ownerConnId || p.net.pending.contains pkt || isHandshake pkt.bytes

theorem Party.sockOpen_of_othersMay {net : Transport} {p : Party} (h : p.othersMay net = true) :
    net.sockOpen = p.net.sockOpen := by
  unfold othersMay at h
  split at h
  · cases h
  · rw [Bool.and_eq_true, decide_eq_true_eq] at h
    exact h.1

theorem Party.own_of_othersMay {net : Transport} {p : Party} (h : p.othersMay net = true) :
    ∀ pkt ∈ net.pending, pkt.ownerConnId = p.ownerConnId →
      pkt ∈ p.net.pending ∨ isHandshake pkt.bytes = true := by
  intro pkt hp ho
  unfold othersMay at h
  split at h
  · cases h
  · rw [Bool.and_eq_true, List.all_eq_true] at h
    have hpkt := h.2 pkt hp
    simpa [ho] using hpkt

variable (C : Crypto)

namespace End

/-- One step of an end whose peer has put the datagrams `peerWire` on the wire. -/
def step (peerWire : List Bytes) (op : Op) (e : End) : End :=
  match op with
  | .send options type payload now =>
    let (rc, party) := e.party.send C options type payload now
    { e with
      party
      sends := e.sends ++
        [⟨options, type, payload, e.party.session, party.session, rc = .ok ()⟩] }
  | .sendPayload data => { e with party := (e.party.sendPayload C data).2 }
  | .pumpReliable now => { e with party := (e.party.pumpReliable C now).2 }
  | .flush i now socket =>
    let (out, party) := e.party.flushAt now i socket
    { e with party, wire := e.wire ++ out.toList }
  | .receive i now =>
    match peerWire[i]? with
    | none => e
    | some datagram => { e with party := e.party.receive C now datagram }
  | .runHousekeeping now => { e with party := (e.party.runHousekeeping C now).2 }
  | .close now reason => { e with party := (e.party.close C now reason).2 }
  | .violation now reason => { e with party := e.party.violation C now reason }
  | .others net otherMemory =>
    if e.party.othersMay net then { e with party := { e.party with net, otherMemory } } else e

theorem step_receive (peerWire : List Bytes) (i : ℕ) (now : UInt64) (e : End) :
    e.step C peerWire (.receive i now) =
      match peerWire[i]? with
      | none => e
      | some datagram => { e with party := e.party.receive C now datagram } := rfl

theorem step_others (peerWire : List Bytes) (net : Transport) (otherMemory : UInt64) (e : End) :
    e.step C peerWire (.others net otherMemory) =
      if e.party.othersMay net then { e with party := { e.party with net, otherMemory } } else e :=
  rfl

/-- An end whose session has just been set up; handshake packets may still be queued. -/
structure Fresh (e : End) : Prop where
  wire : e.wire = []
  sends : e.sends = []
  trace : e.party.session.trace = []
  numbers : e.party.session.numbers = (1, 1, 1, 1, 1)
  contents : ∀ ch, (e.party.session.reliableFor ch).contents = []
  inbox : e.party.session.FreshInbox
  queue : ∀ pkt ∈ e.party.net.pending, pkt.ownerConnId = e.party.ownerConnId →
    ∃ kind encrypted payload seq, kind ≠ .message ∧
      buildPacket C kind encrypted payload e.party.session.connId seq e.party.session.keys.tx =
        .ok pkt.bytes

end End

structure Link where
  left : End
  right : End
  deriving DecidableEq

inductive Action
  | left (op : Op)
  | right (op : Op)

namespace Link

def step (l : Link) : Action → Link
  | .left op => { l with left := l.left.step C l.right.wire op }
  | .right op => { l with right := l.right.step C l.left.wire op }

def run (l : Link) (actions : List Action) : Link := actions.foldl (step C) l

/-- The two ends share a connection id and complementary keys and are fresh. -/
structure Fresh (l : Link) : Prop where
  left : l.left.Fresh C
  right : l.right.Fresh C
  connId : l.right.party.session.connId = l.left.party.session.connId
  keys : l.right.party.session.keys = l.left.party.session.keys.complement

theorem run_append (l : Link) (actions : List Action) (a : Action) :
    l.run C (actions ++ [a]) = (l.run C actions).step C a := by
  simp [run]

/-- No 64-bit counter of either end has wrapped around. -/
def Unwrapped (l : Link) : Prop :=
  ∀ k, l.left.party.session.drawn k + 1 < 2 ^ 64 ∧ l.right.party.session.drawn k + 1 < 2 ^ 64

/-- No message of the sending end uses the type of fragments. -/
def PlainTypes (l : Link) : Prop :=
  ∀ r ∈ l.left.sends, r.type ≠ ControlType.fragment.code

end Link

end SecureCnet
