import Manet.Address.Text
import Manet.Table

/-!
# Routes

A route names the neighbour interface to send through, the local interface that reaches it and the
distance. It also lists the nodes on the way, which plays no part in forwarding. A `RouteTable`
holds one route for each destination.
-/

namespace Manet

/-- A route. -/
structure Route (F : Family) where
  destination : Address F
  /-- Interface address of the symmetric neighbour to send through. -/
  nextHop : Address F
  /-- The local interface that the neighbour is reached on. -/
  iface : Address F
  /-- The number of hops to the destination. -/
  distance : Nat
  /-- Main addresses of the nodes in between, from near to far. -/
  path : List (Address F)
deriving DecidableEq

namespace Route

variable {F : Family}

instance : Keyed (Route F) (Address F) := ⟨destination⟩

/-- Whether packets leave through the same hop as with `other`, as far from the destination. -/
def sameForwarding (r other : Route F) : Bool :=
  r.nextHop = other.nextHop ∧ r.iface = other.iface ∧ r.distance = other.distance

/-- The route as a line of text, without its path. -/
protected def toString (r : Route F) : String :=
  toString r.destination ++ " via " ++ toString r.nextHop ++ " dev " ++ toString r.iface ++
    " dist " ++ toString r.distance

instance : ToString (Route F) := ⟨Route.toString⟩

/-- The nodes in between and then the destination. -/
def hops (r : Route F) : List (Address F) := r.path ++ [r.destination]

end Route

/-- The routes of a node, one for each destination, listed by destination. -/
abbrev RouteTable (F : Family) := Table (Route F)

end Manet
