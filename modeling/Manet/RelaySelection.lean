import Manet.Tables

/-!
# Selection of relays

A node selects some of its symmetric neighbours as multipoint relays, so that what they relay
reaches every node two hops away (RFC 3626, section 8.3.1). The work list holds the pairs of a
willing neighbour and a node behind it that is still to be covered; selecting a neighbour drops all
pairs of the nodes behind it. First come the neighbours that are always willing, then those that
are the only way to some node, then, one after the other, the best of the rest. Ties go to the
lowest address, so the selection is a function of the tables.
-/

namespace Manet

namespace RelaySelection

variable {F : Family}

/-- A neighbour and a node behind it. -/
abbrev Pair (F : Family) := Address F × Address F

/-- The relays selected so far and the pairs still to be covered. -/
structure Progress (F : Family) where
  selected : AddressSet F
  uncovered : List (Pair F)
deriving DecidableEq

/-- Drops the pairs of all nodes behind `via`. -/
def cover (pairs : List (Pair F)) (via : Address F) : List (Pair F) :=
  let reached := (pairs.filter fun p => p.1 = via).map Prod.snd
  pairs.filter fun p => p.2 ∉ reached

/-- Selects a neighbour. -/
def Progress.select (p : Progress F) (via : Address F) : Progress F :=
  ⟨p.selected.insert via, cover p.uncovered via⟩

/-- The pairs to cover: nodes that are neither this one nor symmetric neighbours, behind symmetric
neighbours that relay at all. -/
def eligiblePairs (self : Address F) (neighbours : Table (NeighbourTuple F))
    (twoHops : Table (TwoHopTuple F)) : List (Pair F) :=
  let symmetric := neighbours.toList.filter (·.symmetric)
  (twoHops.toList.filter fun t =>
    t.twoHop ≠ self ∧ (symmetric.all fun n => n.main ≠ t.twoHop) ∧
      symmetric.any fun n => n.main = t.neighbour ∧ n.willingness ≠ .never).map
    fun t => (t.neighbour, t.twoHop)

/-- The neighbours that are the only way to some node. -/
def soleProviders (pairs : List (Pair F)) : AddressSet F :=
  .ofList ((pairs.filter fun p => pairs.all fun q => q.2 = p.2 → q.1 = p.1).map Prod.fst)

/-- How many pairs a neighbour would cover. -/
def reach (pairs : List (Pair F)) (n : NeighbourTuple F) : Nat :=
  (pairs.filter fun p => p.1 = n.main).length

/-- How many nodes behind a neighbour are not neighbours themselves. -/
def degree (neighbours : Table (NeighbourTuple F)) (twoHops : Table (TwoHopTuple F))
    (n : NeighbourTuple F) : Nat :=
  (twoHops.toList.filter fun t => t.neighbour = n.main ∧ !neighbours.contains t.twoHop).length

/-- A neighbour with what it is judged by. -/
structure Candidate (F : Family) where
  main : Address F
  willingness : Willingness
  reach : Nat
  degree : Nat
deriving DecidableEq

/-- Whether `c` is a better choice than `d`: more willing, or as willing and with a greater reach,
or the same in both and with a greater degree. -/
def Candidate.betterThan (c d : Candidate F) : Bool :=
  d.willingness < c.willingness ∨ d.willingness = c.willingness ∧
    (d.reach < c.reach ∨ d.reach = c.reach ∧ d.degree < c.degree)

/-- The neighbours that would cover something, in ascending order. -/
def candidates (neighbours : Table (NeighbourTuple F)) (twoHops : Table (TwoHopTuple F))
    (pairs : List (Pair F)) : List (Candidate F) :=
  (neighbours.toList.filter fun n => n.symmetric ∧ reach pairs n ≠ 0).map fun n =>
    ⟨n.main, n.willingness, reach pairs n, degree neighbours twoHops n⟩

/-- The first of the best candidates. -/
def best? : List (Candidate F) → Option (Candidate F)
  | [] => none
  | c :: cs => some (cs.foldl (fun best c => if c.betterThan best then c else best) c)

/-- Selects the best candidate until nothing is uncovered, or no candidate is left. Every selection
covers a pair, so as many rounds as there are pairs are enough. -/
def greedy (neighbours : Table (NeighbourTuple F)) (twoHops : Table (TwoHopTuple F)) :
    (rounds : Nat) → Progress F → Progress F
  | 0, p => p
  | rounds + 1, p =>
    if p.uncovered = [] then p
    else
      match best? (candidates neighbours twoHops p.uncovered) with
      | none => p
      | some c => greedy neighbours twoHops rounds (p.select c.main)

/-- The whole selection, with what it leaves uncovered. -/
def run (self : Address F) (neighbours : Table (NeighbourTuple F))
    (twoHops : Table (TwoHopTuple F)) : Progress F :=
  let pairs := eligiblePairs self neighbours twoHops
  let always := (neighbours.toList.filter fun n => n.symmetric ∧ n.willingness = .always).map (·.main)
  let p := always.foldl Progress.select ⟨∅, pairs⟩
  let p := (soleProviders p.uncovered).toList.foldl Progress.select p
  greedy neighbours twoHops p.uncovered.length p

end RelaySelection

/-- The relays that the node with main address `self` selects. -/
def selectRelays {F : Family} (self : Address F) (neighbours : Table (NeighbourTuple F))
    (twoHops : Table (TwoHopTuple F)) : AddressSet F :=
  (RelaySelection.run self neighbours twoHops).selected

end Manet
