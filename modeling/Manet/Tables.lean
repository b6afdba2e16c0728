import Manet.Tuple

/-!
# The tables of a node

`Tables` is all that a node knows: one table for each kind of tuple, the relays it selected among
its neighbours, and the number of the advertised set, which grows whenever a selector comes or
goes. `Tables.get?`, `put`, `write` and `drop` reach the six tables with validity times through
one key type; `get?_put` and `get?_drop` say that each touches one key.
-/

namespace Manet

/-- What a node knows. -/
structure Tables (F : Family) where
  links : Table (LinkTuple F)
  neighbours : Table (NeighbourTuple F)
  twoHops : Table (TwoHopTuple F)
  selectors : Table (SelectorTuple F)
  topology : Table (TopologyTuple F)
  associations : Table (AssociationTuple F)
  duplicates : Table (DuplicateTuple F)
  /-- Main addresses of the neighbours selected as relays. -/
  mprs : AddressSet F
  /-- The number of the set of selectors, for the TC messages that advertise it. -/
  ansn : SeqNum
deriving DecidableEq

namespace Tables

variable {F : Family}

/-- Empty tables whose advertised set has the given number. -/
def withAnsn (ansn : SeqNum) : Tables F :=
  { links := ∅, neighbours := ∅, twoHops := ∅, selectors := ∅, topology := ∅, associations := ∅,
    duplicates := ∅, mprs := ∅, ansn }

/-- The tables of a node that knows nothing. -/
def empty : Tables F := withAnsn .initial

instance : EmptyCollection (Tables F) := ⟨empty⟩

instance : Inhabited (Tables F) := ⟨∅⟩

/-- The main address of the node that owns `a`. An interface that nobody claims is its own. -/
def mainAddress (T : Tables F) (a : Address F) : Address F :=
  ((T.associations.get? a).map (·.main)).getD a

/-! ## Tuples with a validity time -/

/-- The tuple with the given key. -/
def get? (T : Tables F) : TupleKey F → Option (TimedTuple F)
  | .link a b => (T.links.get? (a, b)).map .link
  | .twoHop a b => (T.twoHops.get? (a, b)).map .twoHop
  | .selector a => (T.selectors.get? a).map .selector
  | .topology a b => (T.topology.get? (a, b)).map .topology
  | .association a => (T.associations.get? a).map .association
  | .duplicate a s => (T.duplicates.get? (a, s)).map .duplicate

/-- Writes a tuple over the one with its key. -/
def write (T : Tables F) : TimedTuple F → Tables F
  | .link t => { T with links := T.links.insert t }
  | .twoHop t => { T with twoHops := T.twoHops.insert t }
  | .selector t => { T with selectors := T.selectors.insert t }
  | .topology t => { T with topology := T.topology.insert t }
  | .association t => { T with associations := T.associations.insert t }
  | .duplicate t => { T with duplicates := T.duplicates.insert t }

/-- Renumbers the advertised set if the key is that of a selector. -/
def renumber (T : Tables F) : TupleKey F → Tables F
  | .selector _ => { T with ansn := T.ansn.next }
  | _ => T

/-- Stores a tuple. -/
def put (T : Tables F) (t : TimedTuple F) : Tables F := (T.write t).renumber t.key

/-- Removes the tuple with the given key without renumbering the advertised set. -/
def remove (T : Tables F) : TupleKey F → Tables F
  | .link a b => { T with links := T.links.erase (a, b) }
  | .twoHop a b => { T with twoHops := T.twoHops.erase (a, b) }
  | .selector a => { T with selectors := T.selectors.erase a }
  | .topology a b => { T with topology := T.topology.erase (a, b) }
  | .association a => { T with associations := T.associations.erase a }
  | .duplicate a s => { T with duplicates := T.duplicates.erase (a, s) }

/-- Removes a tuple that is stored. -/
def drop (T : Tables F) (k : TupleKey F) : Tables F := (T.remove k).renumber k

theorem get?_write (T : Tables F) (t : TimedTuple F) (k : TupleKey F) :
    (T.write t).get? k = if t.key = k then some t else T.get? k := by
  cases t <;> cases k <;>
    simp only [write, get?, TimedTuple.key, Table.get?_insert, Keyed.key, reduceCtorEq, if_false,
      Prod.mk.injEq, TupleKey.link.injEq, TupleKey.twoHop.injEq, TupleKey.selector.injEq,
      TupleKey.topology.injEq, TupleKey.association.injEq, TupleKey.duplicate.injEq] <;>
    split <;> rfl

theorem get?_renumber (T : Tables F) (k k' : TupleKey F) : (T.renumber k).get? k' = T.get? k' := by
  cases k <;> cases k' <;> rfl

theorem get?_put (T : Tables F) (t : TimedTuple F) (k : TupleKey F) :
    (T.put t).get? k = if t.key = k then some t else T.get? k := by
  rw [put, get?_renumber, get?_write]

theorem get?_remove (T : Tables F) (k k' : TupleKey F) :
    (T.remove k).get? k' = if k' = k then none else T.get? k' := by
  cases k <;> cases k' <;>
    simp only [remove, get?, Table.get?_erase, reduceCtorEq, if_false,
      Prod.mk.injEq, TupleKey.link.injEq, TupleKey.twoHop.injEq, TupleKey.selector.injEq,
      TupleKey.topology.injEq, TupleKey.association.injEq, TupleKey.duplicate.injEq] <;>
    split <;> rfl

theorem get?_drop (T : Tables F) (k k' : TupleKey F) :
    (T.drop k).get? k' = if k' = k then none else T.get? k' := by
  rw [drop, get?_renumber, get?_remove]

end Tables

end Manet
