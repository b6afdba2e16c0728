import Manet.Host.Wheel
import Manet.Router.Run

/-!
# Networks

A `Network` is several routers that share a clock and a timer wheel. A packet that a router sends
lies on the medium until it is delivered over the edges between interfaces; a router never answers
a packet with a packet at once, so one round of deliveries empties the medium.
-/

namespace Manet

/-- An interface of a node: the number of the node and the position of the interface. -/
abbrev Endpoint := Nat × Nat

/-- A connection between two interfaces. It carries packets both ways. -/
structure Edge where
  ends : Endpoint × Endpoint
deriving DecidableEq

instance : Keyed Edge (Endpoint × Endpoint) := ⟨Edge.ends⟩

namespace Edge

/-- The edge with its ends exchanged. -/
def flip (e : Edge) : Edge := ⟨(e.ends.2, e.ends.1)⟩

/-- The end that hears what the other one sends. -/
def opposite? (e : Edge) (sender : Endpoint) : Option Endpoint :=
  if e.ends.1 = sender then some e.ends.2
  else if e.ends.2 = sender then some e.ends.1
  else none

end Edge

variable {F : Family}

/-- A router with the interfaces of its host. -/
structure Member (F : Family) where
  router : Router F
  provided : List (Interface F)

/-- A packet on the medium. -/
structure Transmission where
  node : Nat
  iface : InterfaceId
  packet : Octets

/-- Something that happened at a node. -/
inductive NetworkEvent (F : Family) where
  | call (c : Call F)
  | dropped (error : PacketError)

/-- Routers, what connects them and what happened since the last look. -/
structure Network (F : Family) where
  members : Array (Member F)
  wheel : Wheel (Nat × Timer F)
  now : Time
  edges : Table Edge
  medium : List Transmission
  /-- How many packets were delivered from the medium. -/
  sent : Nat
  /-- What happened, with the number of the node. -/
  events : Array (Nat × NetworkEvent F)

namespace Network

/-- Routers that were not started yet. -/
def create (members : Array (Member F)) (edges : List Edge) : Network F :=
  { members, wheel := ∅, now := 0, edges := .ofList edges, medium := [], sent := 0, events := #[] }

/-- Carries out a call of a node's router. -/
def carryOut (node : Nat) (N : Network F) (c : Call F) : Network F :=
  let N := { N with
    wheel := N.wheel.carryOut (node, ·) N.now c
    events := N.events.push (node, .call c) }
  match c with
  | .broadcast iface packet => { N with medium := N.medium ++ [{ node, iface, packet }] }
  | _ => N

/-- Replaces the router of a node and carries out its calls. -/
def settle (N : Network F) (node : Nat) (router : Router F) : Network F :=
  match N.members[node]? with
  | none => N
  | some m =>
    let calls := router.journal.calls
    let router := { router with journal := .blank router.journal.issued }
    calls.foldl (carryOut node) { N with members := N.members.setIfInBounds node { m with router } }

/-- The router of a node, which gives out the next handles of the wheel. -/
def router? (N : Network F) (node : Nat) : Option (Router F) :=
  (N.members[node]?).map fun m => { m.router with journal := .blank N.wheel.issued }

/-- Applies an operation of a node's router. -/
def act (N : Network F) (node : Nat) (f : Router F → Router F) : Network F :=
  match N.router? node with
  | none => N
  | some r => N.settle node (f r)

/-- Hands over a datagram to a node. The error, if there is one, leaves the network as it was. -/
def receive (N : Network F) (node : Nat) (id : InterfaceId) (sender : Address F)
    (datagram : Octets) : Option PacketError × Network F :=
  match N.router? node with
  | none => (none, N)
  | some r =>
    match r.handlePacket id sender datagram N.now with
    | .ok r => (none, N.settle node r)
    | .error e => (some e, N)

/-- An interface of a node's host. -/
def interface? (N : Network F) (e : Endpoint) : Option (Interface F) :=
  (N.members[e.1]?).bind fun m => m.provided[e.2]?

/-- Which interface of its node a packet was sent out of. -/
def sender? (N : Network F) (t : Transmission) : Option Endpoint := do
  let m ← N.members[t.node]?
  let position ← m.provided.findIdx? fun i => i.id = t.iface
  return (t.node, position)

/-- Hands over a packet at the other end of an edge. -/
def hear (address : Address F) (packet : Octets) (N : Network F) (receiver : Endpoint) : Network F :=
  match N.interface? receiver with
  | none => N
  | some i =>
    match N.receive receiver.1 i.id address packet with
    | (none, N) => N
    | (some e, N) => { N with events := N.events.push (receiver.1, .dropped e) }

/-- Delivers a packet over all edges of the interface that it was sent out of. -/
def transmit (N : Network F) (t : Transmission) : Network F :=
  let N := { N with sent := N.sent + 1 }
  match N.sender? t with
  | none => N
  | some sender =>
    match N.interface? sender with
    | none => N
    | some i => (N.edges.toList.filterMap (·.opposite? sender)).foldl (hear i.address t.packet) N

/-- Delivers what lies on the medium. -/
def deliver (N : Network F) : Network F := N.medium.foldl transmit { N with medium := [] }

/-- Starts all routers in order. -/
def start (N : Network F) : Network F :=
  (List.range N.members.size).foldl
    (fun N node =>
      match N.members[node]? with
      | none => N
      | some m => N.act node (·.start m.provided N.now))
    N

/-- Changes the interfaces of a node's host. -/
def provide (N : Network F) (node : Nat) (provided : List (Interface F)) : Network F :=
  { N with members := N.members.modify node ({ · with provided }) }.act node
    (·.refreshInterfaces provided N.now)

/-- Removes an edge in both directions, and says which of them were there. -/
def cut (N : Network F) (e : Edge) : (Bool × Bool) × Network F :=
  let there := N.edges.contains e.ends
  let edges := N.edges.erase e.ends
  let back := edges.contains e.flip.ends
  ((there, back), { N with edges := edges.erase e.flip.ends })

/-- Adds an edge, and says whether it is new. -/
def join (N : Network F) (e : Edge) : Bool × Network F :=
  (!N.edges.contains e.ends, { N with edges := N.edges.insert e })

/-- How many timers one run may fire. -/
def runLimit : Nat := 1000000

/-- Delivers packets and fires timers in turn up to the horizon, then moves the clock there. The
result begins with the number of timers that fired. -/
def runTo (horizon : Time) : (limit : Nat) → Network F → Nat × Network F
  | 0, N => (0, N.deliver)
  | limit + 1, N =>
    let N := N.deliver
    match N.wheel.popDue? horizon with
    | none => (0, { N with now := horizon })
    | some (p, wheel) =>
      let N := { N with wheel, now := p.due }.act p.payload.1 (·.handleTimer p.payload.2 p.due)
      let (fired, N) := runTo horizon limit N
      (fired + 1, N)

/-- Lets time pass. -/
def run (N : Network F) (duration : Time) : Nat × Network F :=
  runTo (N.now + duration) runLimit N

/-- Forgets what happened so far. -/
def clearEvents (N : Network F) : Network F := { N with sent := 0, events := #[] }

end Network

end Manet
