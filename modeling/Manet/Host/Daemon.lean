import Manet.Config
import Manet.Host.Wheel
import Manet.Router.Run

/-!
# The daemon

A `Daemon` is a configured node without its sockets: it accepts datagrams from the subnets of its
interfaces, sends packets to whole subnets, wakes up for its timers and logs what becomes of its
routes.
-/

namespace Manet

/-- A configured router with its host. -/
structure Daemon where
  config : Config
  router : Router .ipv4
  wheel : Wheel (Timer .ipv4)
  now : Time

/-- Where a datagram comes from. -/
inductive Origin where
  | thisNode
  /-- A subnet of the node, with its interface. -/
  | subnet (iface : InterfaceConfig)
  /-- No subnet of the node. -/
  | elsewhere

namespace Daemon

/-- The calls that a router made, in order. -/
abbrev Calls := List (Call .ipv4)

/-- What the log says of a call, if anything. -/
def logText? : Call .ipv4 → Option String
  | .routeAdded route => some ("+ " ++ toString route)
  | .routeChanged old new => some ("~ " ++ toString old ++ " => " ++ toString new)
  | .routeRemoved route => some ("- " ++ toString route)
  | .neighbourLost main => some ("neighbour " ++ toString main ++ " lost")
  | _ => none

/-- The packet of a call with the interface it goes out of. -/
def outgoing? : Call .ipv4 → Option (InterfaceId × Octets)
  | .broadcast iface packet => some (iface, packet)
  | _ => none

/-- Carries out the router's calls as far as they concern timers, and returns all of them. -/
def settle (d : Daemon) : Calls × Daemon :=
  let j := d.router.journal
  (j.calls.toList, { d with
    router := { d.router with journal := .blank j.issued }
    wheel := j.calls.foldl (Wheel.carryOut id d.now) d.wheel })

/-- Starts a router with the given configuration, unless it has no address. -/
def start? (config : Config) (entropy : Entropy) : Option (Calls × Daemon) :=
  config.mainAddress?.map fun main =>
    let router := (Router.create main config.params entropy).start config.provided 0
    settle { config, router, wheel := ∅, now := 0 }

/-- Where a datagram with the given sender comes from. -/
def originOf (d : Daemon) (sender : IPv4) : Origin :=
  if d.router.isLocal sender then .thisNode
  else
    match d.config.interfaceFor? sender with
    | none => .elsewhere
    | some i => .subnet i

/-- Takes in a datagram from the subnet of an interface. -/
def receive (d : Daemon) (i : InterfaceConfig) (sender : IPv4) (datagram : Octets) :
    Except PacketError (Calls × Daemon) := do
  let router ← d.router.handlePacket (.name i.name) sender datagram d.now
  return { d with router }.settle

/-- Stops the router. -/
def stop (d : Daemon) : Calls × Daemon := { d with router := d.router.stop }.settle

/-- How many timers one wake-up may fire, and how many wake-ups there may be. -/
def workLimit : Nat := 1000000

/-- Fires the timers that are due now. The result begins with their number. -/
def fireDue : (limit : Nat) → Daemon → Nat × Calls × Daemon
  | 0, d => (0, [], d)
  | limit + 1, d =>
    match d.wheel.popDue? d.now with
    | none => (0, [], d)
    | some (p, wheel) =>
      let (calls, d) := { d with wheel, router := d.router.handleTimer p.payload d.now }.settle
      let (fired, later, d) := fireDue limit d
      (fired + 1, calls ++ later, d)

/-- When to wake up next: at the next deadline if it is before the horizon, never in the past. A
daemon that is late sleeps through to the horizon. -/
def wakeUp (d : Daemon) (horizon : Time) (late : Bool) : Time :=
  match d.wheel.nextDeadline? with
  | some due => if due ≤ horizon ∧ !late then max d.now due else max d.now horizon
  | none => max d.now horizon

/-- Sleeps and fires timers in turn until the horizon is reached. -/
def advanceTo (horizon : Time) (late : Bool) : (limit : Nat) → Daemon → Nat × Calls × Daemon
  | 0, d => (0, [], d)
  | limit + 1, d =>
    let (fired, calls, d) := fireDue workLimit { d with now := d.wakeUp horizon late }
    if horizon ≤ d.now then (fired, calls, d)
    else
      let (more, later, d) := advanceTo horizon late limit d
      (fired + more, calls ++ later, d)

/-- Lets time pass. The result begins with the number of timers that fired. -/
def advance (d : Daemon) (duration : Time) (late : Bool) : Nat × Calls × Daemon :=
  advanceTo (d.now + duration) late workLimit d

end Daemon

end Manet
