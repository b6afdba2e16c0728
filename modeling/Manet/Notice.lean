import Manet.Route
import Manet.SeqNum

/-!
# Notices

What a router tells its operator, by level of interest. A line names the router first.
-/

namespace Manet

/-- How much a notice matters. -/
inductive Level where
  | trace
  | debug
  | info
  | warn
deriving DecidableEq, Repr

/-- The name of a level. -/
def Level.label : Level → String
  | trace => "TRACE"
  | debug => "DEBUG"
  | info => "INFO"
  | warn => "WARN"

/-- Something a router tells its operator. -/
inductive Notice (F : Family) where
  | started (interfaces : Nat)
  | stopped
  | packetReceived (seqno : SeqNum) (messages : Nat) (sender : Address F)
  | unknownMessage (kind : UInt8) (originator : Address F)
  | forwarded (seqno : SeqNum) (originator : Address F)
  | linkAdded (iface neighbour : Address F)
  | linkRemoved (iface neighbour : Address F)
  | neighbourFound (main : Address F)
  | neighbourLost (main : Address F)
  | twoHopAdded (twoHop neighbour : Address F)
  | twoHopDropped (twoHop neighbour : Address F)
  | selectedBy (main : Address F)
  | releasedBy (main : Address F)
  | relaysSelected (mprs : AddressSet F)
  | tcOutdated (ansn : SeqNum) (originator : Address F)
  | interfaceLearned (iface main : Address F)
  | routeAdded (route : Route F)
  | routeChanged (route : Route F)
  | routeRemoved (route : Route F)
  | unreachable (nextHop : Address F)
  | strayLink (main : Address F)
  | helloSent (seqno : SeqNum)
  | tcSent (ansn : SeqNum)
  | midSent

namespace Notice

variable {F : Family}

/-- How much the notice matters. -/
def level : Notice F → Level
  | started .. | stopped | neighbourLost .. => .info
  | unreachable .. | strayLink .. => .warn
  | unknownMessage .. | neighbourFound .. | selectedBy .. | releasedBy .. | relaysSelected ..
  | routeAdded .. | routeChanged .. | routeRemoved .. => .debug
  | packetReceived .. | forwarded .. | linkAdded .. | linkRemoved .. | twoHopAdded ..
  | twoHopDropped .. | tcOutdated .. | interfaceLearned .. | helloSent .. | tcSent .. | midSent =>
    .trace

/-- A set of addresses in braces. -/
def braced (s : AddressSet F) : String :=
  "\x7b" ++ String.intercalate ", " (s.toList.map toString) ++ "\x7d"

/-- What is said of the router. -/
def text : Notice F → String
  | started n => "started OLSR on " ++ toString n ++ " interface(s)"
  | stopped => "stopped OLSR"
  | packetReceived seqno n sender =>
    "received packet " ++ toString seqno ++ " with " ++ toString n ++ " message(s) from " ++
      toString sender
  | unknownMessage kind originator =>
    "received message of unknown type " ++ toString kind ++ " from " ++ toString originator
  | forwarded seqno originator =>
    "forwards message " ++ toString seqno ++ " of " ++ toString originator
  | linkAdded iface neighbour => "adds link " ++ toString iface ++ " -> " ++ toString neighbour
  | linkRemoved iface neighbour => "removes link " ++ toString iface ++ " -> " ++ toString neighbour
  | neighbourFound main => "has a new symmetric neighbour " ++ toString main
  | neighbourLost main => "lost neighbour " ++ toString main
  | twoHopAdded twoHop neighbour =>
    "adds 2-hop neighbour " ++ toString twoHop ++ " via " ++ toString neighbour
  | twoHopDropped twoHop neighbour =>
    "drops 2-hop neighbour " ++ toString twoHop ++ " via " ++ toString neighbour
  | selectedBy main => "was selected as MPR by " ++ toString main
  | releasedBy main => "is no longer MPR of " ++ toString main
  | relaysSelected mprs => "selected MPR set " ++ braced mprs
  | tcOutdated ansn originator =>
    "ignores outdated TC " ++ toString ansn ++ " of " ++ toString originator
  | interfaceLearned iface main =>
    "learns " ++ toString iface ++ " is an interface of " ++ toString main
  | routeAdded route => "adds route " ++ toString route
  | routeChanged route => "changes route " ++ toString route
  | routeRemoved route => "removes route " ++ toString route
  | unreachable nextHop => "link layer reports " ++ toString nextHop ++ " unreachable"
  | strayLink main => "has a link to " ++ toString main ++ " without neighbour entry"
  | helloSent seqno => "sends HELLO " ++ toString seqno
  | tcSent ansn => "sends TC with ANSN " ++ toString ansn
  | midSent => "sends MID"

/-- The line of the router with main address `self`. -/
def line (self : Address F) (n : Notice F) : String :=
  n.level.label ++ " " ++ toString self ++ " " ++ n.text

end Notice

end Manet
