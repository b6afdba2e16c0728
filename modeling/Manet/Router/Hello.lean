import Manet.Router.Neighbourhood
import Manet.Router.Outbound

/-!
# HELLO messages

A HELLO lists the links of its sender. A router learns from it that it is heard (link sensing, RFC
3626 section 7.1.1), how willing the sender is, who lives behind it (section 8.2.1) and whether the
sender selected it as relay (section 8.4.1). It lists its own links in the same way (section 6.2).
-/

namespace Manet.Router

variable {F : Family}

/-! ## Link sensing -/

/-- What a block that lists the receiver says of the link: the sender calls it lost, or hears the
receiver, or says nothing. -/
def senseBlock (now validity hold : Time) (link : LinkTuple F) (b : HelloBlock F) : LinkTuple F :=
  match b.code.link with
  | .lost => { link with symTime := now }
  | .symmetric | .asymmetric =>
    { link with symTime := now + validity, time := now + validity + hold, lostTime := none }
  | .unspecified => link

/-- Whether a block says something of the links that it lists. -/
def saysLinkState (b : HelloBlock F) : Bool := b.code.link ≠ .unspecified

/-- The link after a HELLO whose blocks that list the receiver are given. -/
def senseLink (now validity hold : Time) (blocks : List (HelloBlock F)) (link : LinkTuple F) :
    LinkTuple F :=
  let link := blocks.foldl (senseBlock now validity hold) { link with asymTime := now + validity }
  { link with time := max link.time link.asymTime }

/-- A link that is neither symmetric nor heard. -/
def freshLink (iface neighbour : Address F) (now validity : Time) : LinkTuple F :=
  { iface, neighbour, symTime := now, asymTime := now, time := now + validity, lostTime := none }

/-- Updates the link that a HELLO came over, and the neighbour if the link is new or the HELLO says
something of it. -/
def senseHello (r : Router F) (validity : Time) (willingness : Willingness)
    (blocks : List (HelloBlock F)) (receiver sender : Address F) (now : Time) : Router F :=
  let blocks := blocks.filter fun b => receiver ∈ b.addresses
  let sense := senseLink now validity r.params.neighbourHoldTime blocks
  match r.tables.links.get? (receiver, sender) with
  | none =>
    let link := sense (freshLink receiver sender now validity)
    let r := (r.note (.linkAdded receiver sender)).onStore (·.insert (.link link) now)
    r.checkNeighbour link (some willingness) now
  | some link =>
    let link := sense link
    let r := r.onStore (·.overwrite (.link link))
    if blocks.any saysLinkState then r.checkNeighbour link (some willingness) now else r

/-! ## Neighbours, nodes two hops away, selectors -/

/-- Records how willing the originator is, if it is a neighbour. -/
def recordWillingness (r : Router F) (originator : Address F) (willingness : Willingness) : Router F :=
  match r.tables.neighbours.get? originator with
  | none => r
  | some n =>
    r.onTables fun T => { T with neighbours := T.neighbours.insert { n with willingness } }

/-- Whether there is a symmetric link to the node with main address `main`. -/
def hearsNode (r : Router F) (main : Address F) (now : Time) : Bool :=
  r.tables.links.toList.any fun t => r.mainAddress t.neighbour = main ∧ t.isSymmetric now

/-- Records what the originator says of one node: it is a symmetric neighbour of the originator or
no neighbour. This node and its own symmetric neighbours are not two hops away. -/
def recordTwoHop (originator : Address F) (validUntil now : Time) (r : Router F)
    (said : NeighbourType × Address F) : Router F :=
  let twoHop := r.mainAddress said.2
  match said.1 with
  | .notNeighbour => r.onStore (·.erase (.twoHop originator twoHop))
  | .symmetric | .mpr =>
    if r.isLocal twoHop ∨ r.hasSymmetricNeighbour twoHop then r
    else
      match r.tables.twoHops.get? (originator, twoHop) with
      | some t => r.onStore (·.overwrite (.twoHop { t with time := validUntil }))
      | none =>
        (r.note (.twoHopAdded twoHop originator)).onStore
          (·.insert (.twoHop { neighbour := originator, twoHop, time := validUntil }) now)

/-- What blocks say, node by node. -/
def statements (blocks : List (HelloBlock F)) : List (NeighbourType × Address F) :=
  blocks.flatMap fun b => b.addresses.map fun a => (b.code.neighbour, a)

/-- Records the neighbours of a symmetric neighbour. -/
def recordTwoHops (r : Router F) (originator : Address F) (validity : Time)
    (blocks : List (HelloBlock F)) (now : Time) : Router F :=
  if r.hearsNode originator now then
    (statements blocks).foldl (recordTwoHop originator (now + validity) now) r
  else r

/-- Whether blocks list this node as a relay of the sender. -/
def isSelectedBy (r : Router F) (blocks : List (HelloBlock F)) : Bool :=
  (statements blocks).any fun said => said.1 = .mpr ∧ r.mainAddress said.2 = r.address

/-- Records that the originator selected this node as relay. -/
def recordSelector (r : Router F) (originator : Address F) (validity : Time)
    (blocks : List (HelloBlock F)) (now : Time) : Router F :=
  if r.isSelectedBy blocks then
    match r.tables.selectors.get? originator with
    | some t => r.onStore (·.overwrite (.selector { t with time := now + validity }))
    | none =>
      (r.note (.selectedBy originator)).onStore
        (·.insert (.selector { main := originator, time := now + validity }) now)
  else r

/-- Takes in a HELLO. -/
def processHello (r : Router F) (originator : Address F) (validity : Time)
    (willingness : Willingness) (blocks : List (HelloBlock F)) (receiver sender : Address F)
    (now : Time) : Router F :=
  let r := r.senseHello validity willingness blocks receiver sender now
  let r := r.recordWillingness originator willingness
  let r := (r.recordTwoHops originator validity blocks now).updateRelays
  r.recordSelector originator validity blocks now

/-! ## Generation -/

/-- The link type under which a link is advertised. -/
def linkTypeOf (r : Router F) (t : LinkTuple F) (now : Time) : LinkType :=
  if r.params.useLinkLayerFeedback ∧ t.isLost now then .lost
  else if t.isSymmetric now then .symmetric
  else if t.isAsymmetric now then .asymmetric
  else .lost

/-- The neighbour type under which a node is advertised, unless it is unknown. -/
def neighbourTypeOf? (r : Router F) (main : Address F) : Option NeighbourType :=
  if r.tables.mprs.contains main then some .mpr
  else
    (r.tables.neighbours.get? main).map fun n => if n.symmetric then .symmetric else .notNeighbour

/-- Adds an address to the block of its code, which is opened at the end if there is none. -/
def addToBlock (code : LinkCode) (a : Address F) : List (HelloBlock F) → List (HelloBlock F)
  | [] => [⟨code, [a]⟩]
  | b :: bs =>
    if b.code = code then { b with addresses := b.addresses ++ [a] } :: bs
    else b :: addToBlock code a bs

/-- The link code under which a link is advertised, unless its parts contradict each other. -/
def linkCodeOf? (r : Router F) (t : LinkTuple F) (now : Time) : Option LinkCode :=
  (r.neighbourTypeOf? (r.mainAddress t.neighbour)).bind (LinkCode.of? (r.linkTypeOf t now))

/-- The live links, by link code. -/
def helloBlocks (r : Router F) (now : Time) : List (HelloBlock F) :=
  (r.tables.links.toList.filter (·.isAlive now)).foldl
    (fun blocks t =>
      match r.linkCodeOf? t now with
      | some code => addToBlock code t.neighbour blocks
      | none => blocks)
    []

/-- The main addresses behind live links that are not stored as neighbours. -/
def strayLinks (r : Router F) (now : Time) : List (Address F) :=
  ((r.tables.links.toList.filter (·.isAlive now)).map fun t => r.mainAddress t.neighbour).filter
    fun main => (r.neighbourTypeOf? main).isNone

/-- Lets a HELLO wait. -/
def sendHello (r : Router F) (now : Time) : Router F :=
  let blocks := r.helloBlocks now
  let r := (r.strayLinks now).foldl (fun r main => r.note (.strayLink main)) r
  let r := r.note (.helloSent r.messageSeqno.next)
  r.originate r.params.neighbourHoldTime 1
    (.hello (.ofDuration r.params.helloInterval) r.params.willingness blocks)

end Manet.Router
