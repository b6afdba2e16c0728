import Manet.Table
import Manet.Address
import Manet.SeqNum
import Manet.Time
import Manet.Willingness

/-!
# Tuples

What a node knows is kept as tuples (RFC 3626, section 4): its links, its neighbours, the nodes two
hops away, the neighbours that selected it as relay, the links that distant nodes advertise, the
interfaces of distant nodes, and the messages it has seen. All but the neighbour tuples have a
time until which they are valid; `TimedTuple` is any of those and `TupleKey` the key of one.
-/

namespace Manet

variable {F : Family}

/-! ## The seven kinds -/

/-- A link between a local interface and an interface of a neighbour. -/
structure LinkTuple (F : Family) where
  iface : Address F
  neighbour : Address F
  /-- The link is symmetric until then. -/
  symTime : Time
  /-- The neighbour interface is heard until then. -/
  asymTime : Time
  /-- The tuple is kept until then. -/
  time : Time
  /-- The link layer calls the link lost until then. -/
  lostTime : Option Time
deriving DecidableEq

/-- A node with a link to this one. -/
structure NeighbourTuple (F : Family) where
  main : Address F
  willingness : Willingness
  symmetric : Bool
deriving DecidableEq

/-- A symmetric neighbour of a neighbour. -/
structure TwoHopTuple (F : Family) where
  neighbour : Address F
  twoHop : Address F
  time : Time
deriving DecidableEq

/-- A neighbour that selected this node as relay. -/
structure SelectorTuple (F : Family) where
  main : Address F
  time : Time
deriving DecidableEq

/-- `last` advertised `dest` as one of its selectors. -/
structure TopologyTuple (F : Family) where
  dest : Address F
  last : Address F
  /-- The state of the advertised set that the tuple comes from. -/
  seqno : SeqNum
  time : Time
deriving DecidableEq

/-- `iface` is an interface of the node with main address `main`. -/
structure AssociationTuple (F : Family) where
  iface : Address F
  main : Address F
  /-- Absent for local interfaces, whose associations last. -/
  time : Option Time
deriving DecidableEq

/-- A message that was received before. -/
structure DuplicateTuple (F : Family) where
  originator : Address F
  seqno : SeqNum
  retransmitted : Bool
  /-- The local interfaces that received it. -/
  interfaces : List (Address F)
  time : Time
deriving DecidableEq

instance : Keyed (LinkTuple F) (Address F × Address F) := ⟨fun t => (t.iface, t.neighbour)⟩

instance : Keyed (NeighbourTuple F) (Address F) := ⟨NeighbourTuple.main⟩

instance : Keyed (TwoHopTuple F) (Address F × Address F) := ⟨fun t => (t.neighbour, t.twoHop)⟩

instance : Keyed (SelectorTuple F) (Address F) := ⟨SelectorTuple.main⟩

instance : Keyed (TopologyTuple F) (Address F × Address F) := ⟨fun t => (t.dest, t.last)⟩

instance : Keyed (AssociationTuple F) (Address F) := ⟨AssociationTuple.iface⟩

instance : Keyed (DuplicateTuple F) (Address F × SeqNum) := ⟨fun t => (t.originator, t.seqno)⟩

namespace LinkTuple

/-- Whether the link is symmetric. -/
def isSymmetric (t : LinkTuple F) (now : Time) : Bool := now < t.symTime

/-- Whether the neighbour interface is heard. -/
def isAsymmetric (t : LinkTuple F) (now : Time) : Bool := now < t.asymTime

/-- Whether the link layer calls the link lost. -/
def isLost (t : LinkTuple F) (now : Time) : Bool := t.lostTime.any fun lost => now < lost

/-- Whether the tuple is still valid. -/
def isAlive (t : LinkTuple F) (now : Time) : Bool := now < t.time

end LinkTuple

/-! ## Tuples with a validity time -/

/-- The key of a tuple with a validity time. -/
inductive TupleKey (F : Family) where
  | link (iface neighbour : Address F)
  | twoHop (neighbour twoHop : Address F)
  | selector (main : Address F)
  | topology (dest last : Address F)
  | association (iface : Address F)
  | duplicate (originator : Address F) (seqno : SeqNum)
deriving DecidableEq

/-- The kind of a key and its parts as numbers, which is what keys are ordered by. -/
def TupleKey.rank : TupleKey F → Nat × Nat × Nat
  | link a b => (0, a.toNat, b.toNat)
  | twoHop a b => (1, a.toNat, b.toNat)
  | selector a => (2, a.toNat, 0)
  | topology a b => (3, a.toNat, b.toNat)
  | association a => (4, a.toNat, 0)
  | duplicate a s => (5, a.toNat, s.toNat)

theorem TupleKey.rank_inj {k k' : TupleKey F} (h : k.rank = k'.rank) : k = k' := by
  cases k <;> cases k' <;> simp_all [rank, Address.toNat_inj, UInt16.toNat_inj]

instance : KeyOrder (TupleKey F) := KeyOrder.lift TupleKey.rank TupleKey.rank_inj

/-- A tuple with a validity time. -/
inductive TimedTuple (F : Family) where
  | link (t : LinkTuple F)
  | twoHop (t : TwoHopTuple F)
  | selector (t : SelectorTuple F)
  | topology (t : TopologyTuple F)
  | association (t : AssociationTuple F)
  | duplicate (t : DuplicateTuple F)
deriving DecidableEq

namespace TimedTuple

/-- The key of the tuple. -/
def key : TimedTuple F → TupleKey F
  | link t => .link t.iface t.neighbour
  | twoHop t => .twoHop t.neighbour t.twoHop
  | selector t => .selector t.main
  | topology t => .topology t.dest t.last
  | association t => .association t.iface
  | duplicate t => .duplicate t.originator t.seqno

/-- The end of the tuple's validity, if it has one. -/
def time : TimedTuple F → Option Time
  | link t => some t.time
  | twoHop t => some t.time
  | selector t => some t.time
  | topology t => some t.time
  | association t => t.time
  | duplicate t => some t.time

/-- The tuple with another end of its validity. Only associations can be without one. -/
def withTime : TimedTuple F → Option Time → TimedTuple F
  | association t, time => association { t with time }
  | link t, some time => link { t with time }
  | twoHop t, some time => twoHop { t with time }
  | selector t, some time => selector { t with time }
  | topology t, some time => topology { t with time }
  | duplicate t, some time => duplicate { t with time }
  | t, none => t

/-- Whether the tuple's validity has ended. -/
def isExpired (t : TimedTuple F) (now : Time) : Bool := t.time.any fun time => time ≤ now

/-- When the tuple needs to be looked at next. A link needs it also when it stops being symmetric,
since the neighbour may be lost then. -/
def deadline : TimedTuple F → Time → Option Time
  | link t, now => some (if t.isSymmetric now then min t.time t.symTime else t.time)
  | t, _ => t.time

end TimedTuple

end Manet
