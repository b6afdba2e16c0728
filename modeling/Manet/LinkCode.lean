/-!
# Link codes

A HELLO sorts the neighbour interfaces that it lists by a link code: the state of the link and what
the node behind it is to the sender (RFC 3626, section 6.1.1). A symmetric link to a node that is
no neighbour is a contradiction, and no `LinkCode` says so.
-/

namespace Manet

/-- The state of a link. -/
inductive LinkType where
  | unspecified
  | asymmetric
  | symmetric
  | lost
deriving DecidableEq, Repr

/-- What the node behind a link is to the sender. -/
inductive NeighbourType where
  | notNeighbour
  | symmetric
  | mpr
deriving DecidableEq, Repr

/-- A link type with a neighbour type that it goes with. -/
structure LinkCode where
  link : LinkType
  neighbour : NeighbourType
  consistent : link = .symmetric → neighbour ≠ .notNeighbour
deriving DecidableEq

namespace LinkType

/-- The two bits of a link type. -/
def bits : LinkType → Nat
  | unspecified => 0
  | asymmetric => 1
  | symmetric => 2
  | lost => 3

/-- The link type in the low two bits. -/
def ofBits (n : Nat) : LinkType :=
  match n % 4 with
  | 0 => unspecified
  | 1 => asymmetric
  | 2 => symmetric
  | _ => lost

end LinkType

namespace NeighbourType

/-- The number of a neighbour type. -/
def number : NeighbourType → Nat
  | notNeighbour => 0
  | symmetric => 1
  | mpr => 2

/-- The neighbour type with the given number. -/
def ofNumber? : Nat → Option NeighbourType
  | 0 => some notNeighbour
  | 1 => some symmetric
  | 2 => some mpr
  | _ => none

end NeighbourType

namespace LinkCode

/-- A lost link may lead to any neighbour. -/
theorem consistent_lost (n : NeighbourType) : LinkType.lost = .symmetric → n ≠ .notNeighbour := nofun

/-- A relay may stand at the end of any link. -/
theorem consistent_mpr (l : LinkType) : l = .symmetric → NeighbourType.mpr ≠ .notNeighbour :=
  fun _ => nofun

/-- The link code with the given parts, unless they contradict each other. -/
def of? (link : LinkType) (neighbour : NeighbourType) : Option LinkCode :=
  if h : link = .symmetric → neighbour ≠ .notNeighbour then some ⟨link, neighbour, h⟩ else none

/-- The octet of a link code. -/
def toOctet (c : LinkCode) : UInt8 := UInt8.ofNat (c.link.bits + 4 * c.neighbour.number)

/-- The link code of an octet. Octets above 15, those with the unused neighbour type and
contradictions have none. -/
def ofOctet? (b : UInt8) : Option LinkCode :=
  (NeighbourType.ofNumber? (b.toNat / 4)).bind (of? (LinkType.ofBits b.toNat))

theorem ofOctet?_toOctet (c : LinkCode) : ofOctet? c.toOctet = some c := by
  obtain ⟨l, n, h⟩ := c
  by_cases hc : l = .symmetric ∧ n = .notNeighbour
  · exact absurd hc.2 (h hc.1)
  · cases l <;> cases n <;>
      simp_all [ofOctet?, toOctet, LinkType.bits, LinkType.ofBits, NeighbourType.number,
        NeighbourType.ofNumber?, of?]

end LinkCode

end Manet
