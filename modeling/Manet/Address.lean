import Manet.KeyOrder
import Manet.Octets
import Manet.Table

/-!
# Addresses

A network uses one address family throughout. An `Address F` is a number of as many octets as the
family has; addresses are ordered as numbers and travel with the most significant octet first
(`Address.ofOctets_toOctets`). An `AddressSet` is a table of addresses, each its own key.
-/

namespace Manet

/-- The two address families. -/
inductive Family where
  | ipv4
  | ipv6
deriving DecidableEq, Repr

namespace Family

/-- How many octets an address has. -/
def octets : Family → Nat
  | ipv4 => 4
  | ipv6 => 16

/-- How many bits an address has. -/
abbrev width (F : Family) : Nat := 8 * F.octets

theorem octets_pos (F : Family) : 0 < F.octets := by
  cases F <;> decide

end Family

/-- An interface address, or the main address of a node. -/
@[ext] structure Address (F : Family) where
  bits : BitVec F.width
deriving DecidableEq

namespace Address

variable {F : Family}

instance : Inhabited (Address F) := ⟨⟨0⟩⟩

instance : LawfulBEq (Address F) := inferInstance

/-- The address as a number, which is what it is ordered by. -/
def toNat (a : Address F) : Nat := a.bits.toNat

/-- The address with the given number, modulo the number of addresses. -/
def ofNat (n : Nat) : Address F := ⟨BitVec.ofNat F.width n⟩

theorem toNat_inj {a b : Address F} : a.toNat = b.toNat ↔ a = b :=
  ⟨fun h => Address.ext (BitVec.toNat_inj.mp h), fun h => h ▸ rfl⟩

theorem toNat_lt (a : Address F) : a.toNat < Octets.capacity F.octets := by
  cases F <;> exact a.bits.isLt

theorem toNat_ofNat {n : Nat} (h : n < Octets.capacity F.octets) :
    (ofNat n : Address F).toNat = n := by
  rw [toNat, ofNat, BitVec.toNat_ofNat]
  cases F <;> exact Nat.mod_eq_of_lt h

theorem ofNat_toNat (a : Address F) : ofNat a.toNat = a := by
  simp [ofNat, toNat]

instance : KeyOrder (Address F) := KeyOrder.lift toNat toNat_inj.mp

instance : Keyed (Address F) (Address F) := ⟨id⟩

/-! ## On the wire -/

/-- The octets of the address, most significant first. -/
def toOctets (a : Address F) : Octets := Octets.ofNat F.octets a.toNat

/-- The address that the octets spell. -/
def ofOctets (bs : Octets) : Address F := ofNat bs.toNat

@[simp] theorem length_toOctets (a : Address F) : a.toOctets.length = F.octets :=
  Octets.length_ofNat ..

theorem ofOctets_toOctets (a : Address F) : ofOctets a.toOctets = a := by
  rw [ofOctets, toOctets, Octets.toNat_ofNat, Nat.mod_eq_of_lt a.toNat_lt, ofNat_toNat]

theorem toOctets_ofOctets {bs : Octets} (h : bs.length = F.octets) :
    (ofOctets bs : Address F).toOctets = bs := by
  rw [ofOctets, toOctets, toNat_ofNat (h ▸ Octets.toNat_lt bs), ← h, Octets.ofNat_toNat]

end Address

/-- A set of addresses, listed in ascending order. -/
abbrev AddressSet (F : Family) := Table (Address F)

end Manet
