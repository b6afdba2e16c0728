import Manet.Route
import Manet.Tables

/-!
# Computation of routes

Routes are computed from the tables alone (RFC 3626, section 10), in order of distance. First come
the interfaces and main addresses of symmetric neighbours, over links that are alive; then the
nodes two hops away, behind neighbours that relay; then, layer by layer, what distant nodes
advertise. After each layer the interfaces of nodes with a route get the route of their node.
A layer that adds nothing is the last.
-/

namespace Manet.RouteTable

variable {F : Family}

/-! ## Neighbours -/

/-- The route to `destination` over a link. -/
def overLink (t : LinkTuple F) (destination : Address F) : Route F :=
  { destination, nextHop := t.neighbour, iface := t.iface, distance := 1, path := [] }

/-- The live links to the node with main address `main`. -/
def linksTo (T : Tables F) (now : Time) (main : Address F) : List (LinkTuple F) :=
  T.links.toList.filter fun t => t.isAlive now ∧ T.mainAddress t.neighbour = main

/-- Adds the routes to a symmetric neighbour: to the interfaces that links name, and to the main
address over the last of these links if none of them names it. -/
def addNeighbour (T : Tables F) (now : Time) (R : RouteTable F) (main : Address F) : RouteTable F :=
  let links := linksTo T now main
  let R := links.foldl (fun R t => R.insert (overLink t t.neighbour)) R
  match links.getLast? with
  | some t => if links.any (fun t => t.neighbour = main) then R else R.insert (overLink t main)
  | none => R

/-- The routes to symmetric neighbours. -/
def neighbourRoutes (T : Tables F) (now : Time) : RouteTable F :=
  ((T.neighbours.toList.filter (·.symmetric)).map (·.main)).foldl (addNeighbour T now) ∅

/-! ## Nodes two hops away -/

/-- Whether `a` is the main address of a symmetric neighbour. -/
def isSymmetricNeighbour (T : Tables F) (a : Address F) : Bool :=
  (T.neighbours.get? a).any (·.symmetric)

/-- The neighbour of a two-hop tuple, if it is symmetric and relays. -/
def relayOf? (T : Tables F) (t : TwoHopTuple F) : Option (NeighbourTuple F) :=
  (T.neighbours.get? t.neighbour).filter fun n => n.symmetric ∧ n.willingness ≠ .never

/-- Whether a route that is there stays against a relay of the given willingness: because it is
shorter, or because its next hop is a more willing relay. -/
def keeps (T : Tables F) (route : Route F) (willingness : Willingness) : Bool :=
  route.distance < 2 ∨
    (T.neighbours.get? (T.mainAddress route.nextHop)).any fun n => willingness < n.willingness

/-- Adds the route to a node two hops away, in the place of one whose relay is not more willing. -/
def addTwoHop (T : Tables F) (locals : List (Address F)) (R : RouteTable F) (t : TwoHopTuple F) :
    RouteTable F :=
  if t.twoHop ∈ locals ∨ isSymmetricNeighbour T t.twoHop then R
  else
    match relayOf? T t with
    | none => R
    | some relay =>
      match R.get? relay.main with
      | none => R
      | some via =>
        if (R.get? t.twoHop).any fun route => keeps T route relay.willingness then R
        else
          R.insert {
            destination := t.twoHop
            nextHop := via.nextHop
            iface := via.iface
            distance := 2
            path := [relay.main] }

/-- Adds the routes to nodes two hops away. -/
def addTwoHops (T : Tables F) (locals : List (Address F)) (R : RouteTable F) : RouteTable F :=
  T.twoHops.toList.foldl (addTwoHop T locals) R

/-! ## Distant nodes -/

/-- Whether an address is without a route and in need of one. -/
def lacksRoute (locals : List (Address F)) (R : RouteTable F) (a : Address F) : Bool :=
  a ∉ locals ∧ !R.contains a

/-- Adds the route to an advertised node whose advertiser is `h` hops away. -/
def addAdvertised (locals : List (Address F)) (h : Nat) (R : RouteTable F) (t : TopologyTuple F) :
    RouteTable F :=
  if lacksRoute locals R t.dest then
    match R.get? t.last with
    | none => R
    | some parent =>
      if parent.distance = h then
        R.insert { parent with destination := t.dest, distance := h + 1, path := parent.hops }
      else R
  else R

/-- Adds the route to an interface of a node that has a route. -/
def addInterface (locals : List (Address F)) (R : RouteTable F) (t : AssociationTuple F) :
    RouteTable F :=
  if lacksRoute locals R t.iface then
    match R.get? t.main with
    | none => R
    | some main => R.insert { main with destination := t.iface }
  else R

/-- Adds the layer behind the nodes that are `h` hops away, then the interfaces of all nodes. -/
def addLayer (T : Tables F) (locals : List (Address F)) (h : Nat) (R : RouteTable F) :
    RouteTable F :=
  T.associations.toList.foldl (addInterface locals)
    (T.topology.toList.foldl (addAdvertised locals h) R)

/-- Adds layers up to the first that adds nothing. -/
def addLayers (T : Tables F) (locals : List (Address F)) : (layers h : Nat) → RouteTable F → RouteTable F
  | 0, _, R => R
  | layers + 1, h, R =>
    let next := addLayer T locals h R
    if next.size = R.size then R else addLayers T locals layers (h + 1) next

/-- The routes of a node with the local addresses `locals`. Every layer but the last gives a route
to the destination of a topology tuple or to an interface, which bounds their number. -/
def compute (T : Tables F) (locals : List (Address F)) (now : Time) : RouteTable F :=
  addLayers T locals (T.topology.size + T.associations.size + 1) 2
    (addTwoHops T locals (neighbourRoutes T now))

/-- The nodes on the way to a destination and the destination. -/
def pathTo? (R : RouteTable F) (destination : Address F) : Option (List (Address F)) :=
  (R.get? destination).map Route.hops

end Manet.RouteTable
