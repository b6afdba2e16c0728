import Manet.Address
import Manet.Text.Quoted

/-!
# Interfaces

A router sends through local interfaces. It knows each by the host's handle for it, a name or a
number, and by the address that its packets carry as their source.
-/

namespace Manet

/-- The host's handle for a local interface. -/
inductive InterfaceId where
  | name (s : String)
  | number (n : UInt8)
deriving DecidableEq, Repr

/-- The handle as messages to the operator show it. -/
def InterfaceId.quoted : InterfaceId → String
  | name s => Text.quoted s
  | number n => toString n

/-- A local interface. -/
structure Interface (F : Family) where
  id : InterfaceId
  address : Address F
deriving DecidableEq

end Manet
