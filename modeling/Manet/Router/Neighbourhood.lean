import Manet.Router.Basic

/-!
# The neighbourhood of a router

A neighbour is symmetric while one of the links to it is. `Router.updateNeighbour` derives the
neighbour tuple from the links, and says whether the neighbour was lost; `forgetNeighbour` drops
what depended on it (RFC 3626, section 8.5).
-/

namespace Manet.Router

variable {F : Family}

/-- Whether a link makes the node with main address `main` a symmetric neighbour. -/
def isReached (r : Router F) (main : Address F) (now : Time) : Bool :=
  r.tables.links.toList.any fun t => r.mainAddress t.neighbour = main ∧ r.linkCounts t now

/-- Whether `main` is stored as a symmetric neighbour. -/
def hasSymmetricNeighbour (r : Router F) (main : Address F) : Bool :=
  (r.tables.neighbours.get? main).any (·.symmetric)

/-- Stores the neighbour at the other end of `link`, symmetric or not. A neighbour that was known
by its interface address before its main address became known is stored anew. -/
def storeNeighbour (T : Tables F) (link : LinkTuple F) (willingness : Option Willingness)
    (symmetric : Bool) : Tables F :=
  let main := T.mainAddress link.neighbour
  match T.neighbours.get? main with
  | some n =>
    { T with neighbours :=
        T.neighbours.insert { n with symmetric, willingness := willingness.getD n.willingness } }
  | none =>
    let others := if main ≠ link.neighbour then T.neighbours.erase link.neighbour else T.neighbours
    { T with neighbours := others.insert { main, symmetric, willingness := willingness.getD .standard } }

/-- The keys of the two-hop tuples that satisfy `p`. -/
def twoHopKeys (T : Tables F) (p : TwoHopTuple F → Bool) : List (TupleKey F) :=
  (T.twoHops.toList.filter p).map fun t => .twoHop t.neighbour t.twoHop

/-- Derives the neighbour at the other end of `link` from all links to it. The result says whether
it stopped being symmetric. A node that becomes a symmetric neighbour is not two hops away any
more. -/
def updateNeighbour (r : Router F) (link : LinkTuple F) (willingness : Option Willingness)
    (now : Time) : Bool × Router F :=
  let main := r.mainAddress link.neighbour
  let symmetric := r.isReached main now
  let before := r.hasSymmetricNeighbour main
  let r := r.onTables fun T => storeNeighbour T link willingness symmetric
  if symmetric ∧ !before then
    (false, (r.note (.neighbourFound main)).onStore fun s =>
      s.eraseAll (twoHopKeys s.tables fun t => t.twoHop = main))
  else (before ∧ !symmetric, r)

/-- Drops what depended on the symmetric neighbour `main`, and tells of its loss. -/
def forgetNeighbour (r : Router F) (main : Address F) (now : Time) : Router F :=
  let r := r.onStore fun s => s.eraseAll (twoHopKeys s.tables fun t => t.neighbour = main)
  let r := r.onStore fun s => s.erase (.selector main)
  (r.updateRelays.updateRoutes now).call (.neighbourLost main)

/-- Drops what depended on the neighbour `main`, and tells the operator too. -/
def loseNeighbour (r : Router F) (main : Address F) (now : Time) : Router F :=
  (r.note (.neighbourLost main)).forgetNeighbour main now

/-- Answers a change of `link` that may have lost the neighbour. -/
def checkNeighbour (r : Router F) (link : LinkTuple F) (willingness : Option Willingness)
    (now : Time) : Router F :=
  let (lost, r) := r.updateNeighbour link willingness now
  if lost then r.loseNeighbour (r.mainAddress link.neighbour) now else r

/-- Answers the removal of `link` from the tables. The neighbour goes with its last link. -/
def linkRemoved (r : Router F) (link : LinkTuple F) (now : Time) : Router F :=
  let main := r.mainAddress link.neighbour
  let r := r.note (.linkRemoved link.iface link.neighbour)
  let before := r.hasSymmetricNeighbour main
  let r :=
    match r.tables.links.toList.find? fun t => r.mainAddress t.neighbour = main with
    | some other => (r.updateNeighbour other none now).2
    | none => r.onTables fun T => { T with neighbours := T.neighbours.erase main }
  if before ∧ !r.hasSymmetricNeighbour main then r.loseNeighbour main now
  else r.updateRelays.updateRoutes now

/-- Marks the link with the given key as lost until `hold`. -/
def markLost (hold now : Time) (r : Router F) (key : Address F × Address F) : Router F :=
  match r.tables.links.get? key with
  | none => r
  | some link =>
    let link := { link with lostTime := some hold, time := hold }
    let r := r.onStore fun s => (s.overwrite (.link link)).rearm (.link link.iface link.neighbour) now
    r.checkNeighbour link none now

/-- Answers the link layer's report that a packet to `destination` could not be sent. All links to
the next hop are taken for lost. The report is ignored unless the link layer is believed. -/
def linkFailed (r : Router F) (destination : Address F) (now : Time) : Router F :=
  if r.running ∧ r.params.useLinkLayerFeedback then
    match r.routeTo? destination with
    | none => r
    | some route =>
      let r := r.note (.unreachable route.nextHop)
      let keys := (r.tables.links.toList.filter fun t => t.neighbour = route.nextHop).map Keyed.key
      keys.foldl (markLost (now + r.params.neighbourHoldTime) now) r
  else r

end Manet.Router
