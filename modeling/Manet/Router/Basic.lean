import Manet.Jitter
import Manet.Packet
import Manet.Params
import Manet.RelaySelection
import Manet.RouteTable.Computation
import Manet.Store

/-!
# Routers

A `Router` is the state of one node: its store, its routes, its interfaces, the messages that wait
to be sent, its timers and counters. It acts only through the operations of `Manet.Router.Run`;
what they want of the host is entered into the journal of the store. The time of an operation is
an argument, never earlier than that of the one before.
-/

namespace Manet

/-- The state of a node. -/
structure Router (F : Family) extends Store F where
  /-- The main address, which names the node in its messages. -/
  address : Address F
  params : Params
  routes : RouteTable F
  interfaces : List (Interface F)
  /-- The messages that wait for the next flush. -/
  outbound : List (Message F)
  helloTimer : Option Handle
  tcTimer : Option Handle
  midTimer : Option Handle
  flushTimer : Option Handle
  packetSeqno : SeqNum
  messageSeqno : SeqNum
  running : Bool
  /-- The source of jitter. -/
  entropy : Entropy

namespace Router

variable {F : Family}

/-- A router that was not started yet. -/
def create (address : Address F) (params : Params) (entropy : Entropy) : Router F :=
  { toStore := ∅, address, params, routes := ∅, interfaces := [], outbound := [],
    helloTimer := none, tcTimer := none, midTimer := none, flushTimer := none,
    packetSeqno := .initial, messageSeqno := .initial, running := false, entropy }

/-! ## Parts of the state -/

/-- Applies an operation of the store. -/
def onStore (r : Router F) (f : Store F → Store F) : Router F := { r with toStore := f r.toStore }

/-- Replaces tables without touching timers. -/
def onTables (r : Router F) (f : Tables F → Tables F) : Router F := { r with tables := f r.tables }

/-- Enters a call to the host. -/
def call (r : Router F) (c : Call F) : Router F := { r with journal := r.journal.call c }

/-- Enters a notice. -/
def note (r : Router F) (n : Notice F) : Router F := { r with journal := r.journal.note n }

/-- A random delay up to the greatest jitter. -/
def drawJitter (r : Router F) : Time × Router F :=
  let (delay, entropy) := Jitter.draw r.params.maxJitter r.entropy
  (delay, { r with entropy })

/-- Asks for a timer; the handle is in the result. -/
def schedule (r : Router F) (delay : Time) (timer : Timer F) : Handle × Router F :=
  (r.journal.nextHandle, { r with journal := r.journal.schedule delay timer })

/-! ## Questions -/

/-- The main address of the node that owns `a`. -/
def mainAddress (r : Router F) (a : Address F) : Address F := r.tables.mainAddress a

/-- The addresses of this node. -/
def localAddresses (r : Router F) : List (Address F) := r.address :: r.interfaces.map (·.address)

/-- Whether `a` is an address of this node. -/
def isLocal (r : Router F) (a : Address F) : Bool := a ∈ r.localAddresses

/-- The first symmetric link to an interface of a neighbour. -/
def symmetricLink? (r : Router F) (a : Address F) (now : Time) : Option (LinkTuple F) :=
  r.tables.links.toList.find? fun t => t.neighbour = a ∧ t.isSymmetric now

/-- Whether there is a symmetric link to an interface of a neighbour. -/
def hears (r : Router F) (a : Address F) (now : Time) : Bool := (r.symmetricLink? a now).isSome

/-- Whether this node relays what it receives from `sender`: over a symmetric link, from a node that
selected it. -/
def relaysFor (r : Router F) (sender : Address F) (now : Time) : Bool :=
  r.hears sender now ∧ r.tables.selectors.contains (r.mainAddress sender)

/-- Whether a link makes its neighbour a symmetric one: it is symmetric, and not lost if the link
layer is believed. -/
def linkCounts (r : Router F) (t : LinkTuple F) (now : Time) : Bool :=
  t.isSymmetric now ∧ !(r.params.useLinkLayerFeedback ∧ t.isLost now)

/-- The route to a destination. -/
def routeTo? (r : Router F) (destination : Address F) : Option (Route F) := r.routes.get? destination

/-! ## Derived state -/

/-- Selects relays anew, and tells of a change. -/
def updateRelays (r : Router F) : Router F :=
  let mprs := selectRelays r.address r.tables.neighbours r.tables.twoHops
  if mprs = r.tables.mprs then r
  else
    ((r.note (.relaysSelected mprs)).call (.relaysChanged mprs)).onTables ({ · with mprs })

/-- Tells how a route differs from those of an earlier table. -/
def reportRoute (old : RouteTable F) (r : Router F) (route : Route F) : Router F :=
  match old.get? route.destination with
  | none => (r.note (.routeAdded route)).call (.routeAdded route)
  | some previous =>
    if previous.sameForwarding route then r
    else (r.note (.routeChanged route)).call (.routeChanged previous route)

/-- Tells that there is no route any more to the destination of an earlier one. -/
def reportRemoved (new : RouteTable F) (r : Router F) (route : Route F) : Router F :=
  if new.contains route.destination then r
  else (r.note (.routeRemoved route)).call (.routeRemoved route)

/-- Computes the routes anew, and tells of the differences. -/
def updateRoutes (r : Router F) (now : Time) : Router F :=
  let old := r.routes
  let new := RouteTable.compute r.tables r.localAddresses now
  let r := new.toList.foldl (reportRoute old) { r with routes := new }
  old.toList.foldl (reportRemoved new) r

end Router

end Manet
