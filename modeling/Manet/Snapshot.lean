import Manet.Router.Basic

/-!
# Snapshots

A snapshot is a copy of everything a router knows, for inspection.
-/

namespace Manet

variable {F : Family}

/-- A route with the address it is filed under. -/
structure FiledRoute (F : Family) where
  address : Address F
  route : Route F
deriving DecidableEq

instance : Keyed (FiledRoute F) (Address F) := ⟨FiledRoute.address⟩

/-- What a router knows at one time. -/
structure Snapshot (F : Family) where
  address : Address F
  links : List (LinkTuple F)
  neighbours : List (NeighbourTuple F)
  twoHops : List (TwoHopTuple F)
  selectors : List (SelectorTuple F)
  topology : List (TopologyTuple F)
  associations : List (AssociationTuple F)
  duplicates : List (DuplicateTuple F)
  mprs : AddressSet F
  ansn : SeqNum
  routes : Table (FiledRoute F)
deriving DecidableEq

/-- What the router knows now. -/
def Router.snapshot (r : Router F) : Snapshot F where
  address := r.address
  links := r.tables.links.toList
  neighbours := r.tables.neighbours.toList
  twoHops := r.tables.twoHops.toList
  selectors := r.tables.selectors.toList
  topology := r.tables.topology.toList
  associations := r.tables.associations.toList
  duplicates := r.tables.duplicates.toList
  mprs := r.tables.mprs
  ansn := r.tables.ansn
  routes := .ofList (r.routes.toList.map fun route => ⟨route.destination, route⟩)

end Manet
