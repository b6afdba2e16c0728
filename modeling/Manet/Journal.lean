import Manet.Interface
import Manet.Notice
import Manet.Timer

/-!
# The journal

A router changes nothing outside itself. What it wants of its host it writes into a `Journal`: the
calls in the order in which they are made, and, apart from them, the notices for the operator. The
host carries the calls out and clears the journal. Handles for timers are numbered here, so that
the router knows a timer's handle before the host has seen the call.
-/

namespace Manet

/-- What a router wants of its host. -/
inductive Call (F : Family) where
  /-- To bring `timer` back after `delay`. -/
  | schedule (handle : Handle) (delay : Time) (timer : Timer F)
  /-- To forget a timer. -/
  | cancel (handle : Handle)
  /-- To send a packet out of an interface. -/
  | broadcast (iface : InterfaceId) (packet : Octets)
  | routeAdded (route : Route F)
  | routeChanged (old new : Route F)
  | routeRemoved (route : Route F)
  /-- To know that a symmetric neighbour was lost. -/
  | neighbourLost (main : Address F)
  /-- To know which neighbours now relay for this node. -/
  | relaysChanged (mprs : AddressSet F)
  /-- To know that a packet of this many octets could not be sent. -/
  | oversized (size : Nat)
deriving DecidableEq

/-- The calls and notices since the host last looked. -/
structure Journal (F : Family) where
  /-- How many handles were given out so far. -/
  issued : Nat
  calls : Array (Call F)
  notices : Array (Notice F)

namespace Journal

variable {F : Family}

/-- A journal without entries, after `issued` handles. -/
def blank (issued : Nat) : Journal F := { issued, calls := #[], notices := #[] }

/-- Enters a call. -/
def call (j : Journal F) (c : Call F) : Journal F := { j with calls := j.calls.push c }

/-- Enters a notice. -/
def note (j : Journal F) (n : Notice F) : Journal F := { j with notices := j.notices.push n }

/-- The handle of the next timer. -/
def nextHandle (j : Journal F) : Handle := j.issued + 1

/-- Asks for a timer, which gets the next handle. -/
def schedule (j : Journal F) (delay : Time) (timer : Timer F) : Journal F :=
  { j with issued := j.nextHandle }.call (.schedule j.nextHandle delay timer)

end Journal

end Manet
