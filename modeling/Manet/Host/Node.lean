import Manet.Host.Wheel
import Manet.Router.Run

/-!
# A single node

A `Node` is a router on a host of its own, with a clock that only `advance` moves and a timer wheel.
Each operation reports what happened in it: the timers that fired and the router's calls, in order,
and the router's notices. The handles in the calls are those of the wheel, since both count from
one.
-/

namespace Manet

variable {F : Family}

/-- Something that happened on a host. -/
inductive Event (F : Family) where
  | fired (time : Time) (timer : Timer F)
  | call (c : Call F)

/-- What happened in an operation. -/
structure Report (F : Family) where
  events : List (Event F)
  notices : List (Notice F)

namespace Report

/-- Nothing happened. -/
def empty : Report F := ⟨[], []⟩

/-- One after the other. -/
def append (p q : Report F) : Report F := ⟨p.events ++ q.events, p.notices ++ q.notices⟩

instance : Append (Report F) := ⟨append⟩

end Report

/-- A router with its host. -/
structure Node (F : Family) where
  router : Router F
  wheel : Wheel (Timer F)
  now : Time
  /-- The interfaces that the host has. -/
  provided : List (Interface F)

namespace Node

/-- A node whose router was not started yet. -/
def create (address : Address F) (provided : List (Interface F)) (params : Params)
    (entropy : Entropy) : Node F :=
  { router := .create address params entropy, wheel := ∅, now := 0, provided }

/-- Carries out the router's calls. -/
def settle (n : Node F) : Report F × Node F :=
  let j := n.router.journal
  (⟨j.calls.toList.map .call, j.notices.toList⟩,
    { n with
      router := { n.router with journal := .blank j.issued }
      wheel := j.calls.foldl (Wheel.carryOut id n.now) n.wheel })

/-- Applies an operation of the router. -/
def act (n : Node F) (f : Router F → Router F) : Report F × Node F :=
  { n with router := f n.router }.settle

/-- Starts the router. -/
def start (n : Node F) : Report F × Node F := n.act (·.start n.provided n.now)

/-- Stops the router. -/
def stop (n : Node F) : Report F × Node F := n.act Router.stop

/-- Hands over a datagram. -/
def receive (n : Node F) (id : InterfaceId) (sender : Address F) (datagram : Octets) :
    Except PacketError (Report F × Node F) := do
  let router ← n.router.handlePacket id sender datagram n.now
  return { n with router }.settle

/-- Hands over a timer, whether the wheel has it or not. -/
def deliver (n : Node F) (timer : Timer F) : Report F × Node F := n.act (·.handleTimer timer n.now)

/-- Reports a failed transmission. -/
def linkFailed (n : Node F) (destination : Address F) : Report F × Node F :=
  n.act (·.linkFailed destination n.now)

/-- Changes the interfaces of the host. -/
def provide (n : Node F) (provided : List (Interface F)) : Report F × Node F :=
  { n with provided }.act (·.refreshInterfaces provided n.now)

/-- Changes the parameters. -/
def configure (n : Node F) (params : Params) : Report F × Node F := n.act ({ · with params })

/-- How many timers one advance may fire. -/
def advanceLimit : Nat := 500

/-- Fires the timers that are due at the horizon, in order, and moves the clock there. With its
limit used up, the clock stays at the time of the last timer. -/
def advanceTo (horizon : Time) : (limit : Nat) → Node F → Nat × Report F × Node F
  | 0, n => (0, .empty, n)
  | limit + 1, n =>
    match n.wheel.popDue? horizon with
    | none => (0, .empty, { n with now := horizon })
    | some (p, wheel) =>
      let (report, n) := { n with wheel, now := p.due }.deliver p.payload
      let (fired, later, n) := advanceTo horizon limit n
      (fired + 1, ⟨[.fired p.due p.payload], []⟩ ++ report ++ later, n)

/-- Lets time pass. The result begins with the number of timers that fired. -/
def advance (n : Node F) (duration : Time) : Nat × Report F × Node F :=
  advanceTo (n.now + duration) advanceLimit n

end Node

end Manet
