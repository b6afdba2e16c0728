/-!
# Willingness

How ready a node is to carry traffic for others, from 0 (never) to 7 (always).
-/

namespace Manet

/-- How ready a node is to carry traffic for others. -/
abbrev Willingness := Fin 8

/-- A willingness that does not exist. -/
structure InvalidWillingness where
  value : UInt8
deriving DecidableEq, Repr

/-- The text of the error. -/
def InvalidWillingness.message (e : InvalidWillingness) : String :=
  "willingness " ++ toString e.value ++ " is outside of 0..=7"

namespace Willingness

/-- Carries no traffic for others. -/
def never : Willingness := 0

/-- The willingness of a node that is not told otherwise. -/
def standard : Willingness := 3

/-- Relays for every neighbour. -/
def always : Willingness := 7

/-- The low three bits of the octet that a HELLO carries. -/
def ofOctet (b : UInt8) : Willingness := ⟨b.toNat % 8, Nat.mod_lt _ (by decide)⟩

/-- Takes a number that is in range as it is. -/
def ofUInt8 (b : UInt8) : Except InvalidWillingness Willingness :=
  if h : b.toNat < 8 then .ok ⟨b.toNat, h⟩ else .error ⟨b⟩

/-- The octet that a HELLO carries. -/
def toOctet (w : Willingness) : UInt8 := UInt8.ofNat w.val

theorem ofOctet_toOctet (w : Willingness) : ofOctet w.toOctet = w := by
  revert w
  decide

end Willingness

end Manet
