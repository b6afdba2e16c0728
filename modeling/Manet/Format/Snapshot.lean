import Manet.Format.Values
import Manet.Json.Printing
import Manet.Json.Reading
import Manet.Snapshot

/-!
# Snapshots in JSON

A snapshot is an object of lists, written over lines. Routes are listed as pairs of an address and
a route; of pairs with one address the last counts.
-/

namespace Manet

variable {F : Family}

/-! ## Tuples -/

namespace LinkTuple

/-- The fields of a link. -/
def jsonFields : List Json.Field :=
  [{ name := "local_iface_addr" }, { name := "neighbour_iface_addr" }, { name := "sym_time" },
   { name := "asym_time" }, { name := "time" }, { name := "lost_time", nullable := true }]

/-- A link as an object. -/
def toJson (t : LinkTuple F) : Json :=
  .record [("local_iface_addr", t.iface.toJson), ("neighbour_iface_addr", t.neighbour.toJson),
    ("sym_time", Time.toJson t.symTime), ("asym_time", Time.toJson t.asymTime),
    ("time", Time.toJson t.time), ("lost_time", Json.ofOption Time.toJson t.lostTime)]

/-- Reads a link. -/
def ofJson? (j : Json) : Option (LinkTuple F) :=
  match j.fields? false jsonFields with
  | some [iface, neighbour, symTime, asymTime, time, lostTime] => do
    some {
      iface := ← iface.bind Address.ofJson?
      neighbour := ← neighbour.bind Address.ofJson?
      symTime := ← symTime.bind Time.ofJson?
      asymTime := ← asymTime.bind Time.ofJson?
      time := ← time.bind Time.ofJson?
      lostTime := ← lostTime.bind (Json.nullable? Time.ofJson?) }
  | _ => none

end LinkTuple

namespace NeighbourTuple

/-- The fields of a neighbour. -/
def jsonFields : List Json.Field :=
  [{ name := "main_address" }, { name := "willingness" }, { name := "status" }]

/-- The word for a status. -/
def statusWord (symmetric : Bool) : String := if symmetric then "Symmetric" else "NotSymmetric"

/-- The status that a word stands for. -/
def statusOfWord? (word : String) : Option Bool :=
  if word = statusWord true then some true
  else if word = statusWord false then some false
  else none

/-- Reads a status: its word, or an object whose only member has that name and no value. -/
def statusOfJson? : Json → Option Bool
  | .string text => text.bind statusOfWord?
  | .object [(name, .null)] => name.bind statusOfWord?
  | _ => none

/-- A neighbour as an object. -/
def toJson (t : NeighbourTuple F) : Json :=
  .record [("main_address", t.main.toJson), ("willingness", Willingness.toJson t.willingness),
    ("status", .text (statusWord t.symmetric))]

/-- Reads a neighbour. -/
def ofJson? (j : Json) : Option (NeighbourTuple F) :=
  match j.fields? false jsonFields with
  | some [main, willingness, status] => do
    some {
      main := ← main.bind Address.ofJson?
      willingness := ← willingness.bind Willingness.ofJson?
      symmetric := ← status.bind statusOfJson? }
  | _ => none

end NeighbourTuple

namespace TwoHopTuple

/-- The fields of a node two hops away. -/
def jsonFields : List Json.Field :=
  [{ name := "neighbour_main_address" }, { name := "two_hop_address" }, { name := "time" }]

/-- A node two hops away as an object. -/
def toJson (t : TwoHopTuple F) : Json :=
  .record [("neighbour_main_address", t.neighbour.toJson), ("two_hop_address", t.twoHop.toJson),
    ("time", Time.toJson t.time)]

/-- Reads a node two hops away. -/
def ofJson? (j : Json) : Option (TwoHopTuple F) :=
  match j.fields? false jsonFields with
  | some [neighbour, twoHop, time] => do
    some {
      neighbour := ← neighbour.bind Address.ofJson?
      twoHop := ← twoHop.bind Address.ofJson?
      time := ← time.bind Time.ofJson? }
  | _ => none

end TwoHopTuple

namespace SelectorTuple

/-- The fields of a selector. -/
def jsonFields : List Json.Field := [{ name := "main_address" }, { name := "time" }]

/-- A selector as an object. -/
def toJson (t : SelectorTuple F) : Json :=
  .record [("main_address", t.main.toJson), ("time", Time.toJson t.time)]

/-- Reads a selector. -/
def ofJson? (j : Json) : Option (SelectorTuple F) :=
  match j.fields? false jsonFields with
  | some [main, time] => do
    some { main := ← main.bind Address.ofJson?, time := ← time.bind Time.ofJson? }
  | _ => none

end SelectorTuple

namespace TopologyTuple

/-- The fields of an advertised link. -/
def jsonFields : List Json.Field :=
  [{ name := "dest_address" }, { name := "last_address" }, { name := "seqno" }, { name := "time" }]

/-- An advertised link as an object. -/
def toJson (t : TopologyTuple F) : Json :=
  .record [("dest_address", t.dest.toJson), ("last_address", t.last.toJson),
    ("seqno", SeqNum.toJson t.seqno), ("time", Time.toJson t.time)]

/-- Reads an advertised link. -/
def ofJson? (j : Json) : Option (TopologyTuple F) :=
  match j.fields? false jsonFields with
  | some [dest, last, seqno, time] => do
    some {
      dest := ← dest.bind Address.ofJson?
      last := ← last.bind Address.ofJson?
      seqno := ← seqno.bind SeqNum.ofJson?
      time := ← time.bind Time.ofJson? }
  | _ => none

end TopologyTuple

namespace AssociationTuple

/-- The fields of an association. -/
def jsonFields : List Json.Field :=
  [{ name := "iface_address" }, { name := "main_address" }, { name := "time", nullable := true }]

/-- An association as an object. -/
def toJson (t : AssociationTuple F) : Json :=
  .record [("iface_address", t.iface.toJson), ("main_address", t.main.toJson),
    ("time", Json.ofOption Time.toJson t.time)]

/-- Reads an association. -/
def ofJson? (j : Json) : Option (AssociationTuple F) :=
  match j.fields? false jsonFields with
  | some [iface, main, time] => do
    some {
      iface := ← iface.bind Address.ofJson?
      main := ← main.bind Address.ofJson?
      time := ← time.bind (Json.nullable? Time.ofJson?) }
  | _ => none

end AssociationTuple

namespace DuplicateTuple

/-- The fields of a seen message. -/
def jsonFields : List Json.Field :=
  [{ name := "originator" }, { name := "seqno" }, { name := "retransmitted" },
   { name := "interfaces" }, { name := "time" }]

/-- A seen message as an object. -/
def toJson (t : DuplicateTuple F) : Json :=
  .record [("originator", t.originator.toJson), ("seqno", SeqNum.toJson t.seqno),
    ("retransmitted", .bool t.retransmitted),
    ("interfaces", .list (t.interfaces.map Address.toJson)), ("time", Time.toJson t.time)]

/-- Reads a seen message. -/
def ofJson? (j : Json) : Option (DuplicateTuple F) :=
  match j.fields? false jsonFields with
  | some [originator, seqno, retransmitted, interfaces, time] => do
    some {
      originator := ← originator.bind Address.ofJson?
      seqno := ← seqno.bind SeqNum.ofJson?
      retransmitted := ← retransmitted.bind Json.bool?
      interfaces := ← interfaces.bind (Json.list? Address.ofJson?)
      time := ← time.bind Time.ofJson? }
  | _ => none

end DuplicateTuple

/-! ## Routes -/

namespace Route

/-- The fields of a route. -/
def jsonFields : List Json.Field :=
  [{ name := "destination" }, { name := "next_hop" }, { name := "interface_address" },
   { name := "distance" }, { name := "path" }]

/-- A route as an object. -/
def toJson (r : Route F) : Json :=
  .record [("destination", r.destination.toJson), ("next_hop", r.nextHop.toJson),
    ("interface_address", r.iface.toJson), ("distance", .natural r.distance),
    ("path", .list (r.path.map Address.toJson))]

/-- Reads a route. -/
def ofJson? (j : Json) : Option (Route F) :=
  match j.fields? false jsonFields with
  | some [destination, nextHop, iface, distance, path] => do
    some {
      destination := ← destination.bind Address.ofJson?
      nextHop := ← nextHop.bind Address.ofJson?
      iface := ← iface.bind Address.ofJson?
      distance := ← distance.bind (Json.natural? (Json.greatest 32))
      path := ← path.bind (Json.list? Address.ofJson?) }
  | _ => none

end Route

namespace FiledRoute

/-- An address and a route as a pair. -/
def toJson (r : FiledRoute F) : Json := .list [r.address.toJson, r.route.toJson]

/-- Reads an address and a route. -/
def ofJson? : Json → Option (FiledRoute F)
  | .list [address, route] => do
    some { address := ← Address.ofJson? address, route := ← Route.ofJson? route }
  | _ => none

end FiledRoute

/-! ## Snapshots -/

namespace Snapshot

/-- The fields of a snapshot. -/
def jsonFields : List Json.Field :=
  [{ name := "address" }, { name := "links" }, { name := "neighbours" }, { name := "two_hops" },
   { name := "mpr_selectors" }, { name := "topology" }, { name := "interface_associations" },
   { name := "duplicates" }, { name := "mprs" }, { name := "ansn" }, { name := "routes" }]

/-- A snapshot as an object. -/
def toJson (s : Snapshot F) : Json :=
  .record [("address", s.address.toJson),
    ("links", .list (s.links.map LinkTuple.toJson)),
    ("neighbours", .list (s.neighbours.map NeighbourTuple.toJson)),
    ("two_hops", .list (s.twoHops.map TwoHopTuple.toJson)),
    ("mpr_selectors", .list (s.selectors.map SelectorTuple.toJson)),
    ("topology", .list (s.topology.map TopologyTuple.toJson)),
    ("interface_associations", .list (s.associations.map AssociationTuple.toJson)),
    ("duplicates", .list (s.duplicates.map DuplicateTuple.toJson)),
    ("mprs", .list (s.mprs.toList.map Address.toJson)),
    ("ansn", SeqNum.toJson s.ansn),
    ("routes", .list (s.routes.toList.map FiledRoute.toJson))]

/-- Reads a snapshot. -/
def ofJson? (j : Json) : Option (Snapshot F) :=
  match j.fields? false jsonFields with
  | some [address, links, neighbours, twoHops, selectors, topology, associations, duplicates, mprs,
      ansn, routes] => do
    some {
      address := ← address.bind Address.ofJson?
      links := ← links.bind (Json.list? LinkTuple.ofJson?)
      neighbours := ← neighbours.bind (Json.list? NeighbourTuple.ofJson?)
      twoHops := ← twoHops.bind (Json.list? TwoHopTuple.ofJson?)
      selectors := ← selectors.bind (Json.list? SelectorTuple.ofJson?)
      topology := ← topology.bind (Json.list? TopologyTuple.ofJson?)
      associations := ← associations.bind (Json.list? AssociationTuple.ofJson?)
      duplicates := ← duplicates.bind (Json.list? DuplicateTuple.ofJson?)
      mprs := .ofList (← mprs.bind (Json.list? Address.ofJson?))
      ansn := ← ansn.bind SeqNum.ofJson?
      routes := .ofList (← routes.bind (Json.list? FiledRoute.ofJson?)) }
  | _ => none

/-- The text of a snapshot. -/
def toText (s : Snapshot F) : String := s.toJson.toPrettyString

/-- Reads the text of a snapshot. -/
def ofText? (s : String) : Option (Snapshot F) := (Json.parse? s).bind ofJson?

end Snapshot

end Manet
