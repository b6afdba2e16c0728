import Manet.Interface
import Manet.Params

/-!
# Configuration

A node is configured with its interfaces and their subnets, the port of the protocol and the
protocol parameters. A subnet is the addresses that agree with the interface's on the first bits;
its greatest address reaches all of them.
-/

namespace Manet

/-- An address of the family that configurations use. -/
abbrev IPv4 := Address .ipv4

/-- A configured interface. -/
structure InterfaceConfig where
  name : String
  address : IPv4
  /-- How many leading bits the addresses of the subnet share; more than 32 count as 32. -/
  prefixLen : UInt8
deriving DecidableEq

namespace InterfaceConfig

/-- The mask of the shared bits. -/
def netmask (i : InterfaceConfig) : BitVec Family.ipv4.width :=
  if i.prefixLen = 0 then 0 else BitVec.allOnes _ <<< (32 - min i.prefixLen.toNat 32)

/-- The greatest address of the subnet. -/
def broadcast (i : InterfaceConfig) : IPv4 := ⟨i.address.bits ||| ~~~i.netmask⟩

/-- Whether an address belongs to the subnet. -/
def contains (i : InterfaceConfig) (peer : IPv4) : Bool :=
  peer.bits &&& i.netmask = i.address.bits &&& i.netmask

end InterfaceConfig

/-- The configuration of a node. -/
structure Config where
  /-- Absent to use the address of the first interface. -/
  main : Option IPv4
  port : UInt16
  interfaces : List InterfaceConfig
  params : Params
deriving DecidableEq

namespace Config

/-- The port of the protocol. -/
def standardPort : UInt16 := 698

/-- The main address of the node, unless there is nothing to take it from. -/
def mainAddress? (c : Config) : Option IPv4 :=
  c.main <|> c.interfaces.head?.map (·.address)

/-- The first interface whose subnet holds the address. -/
def interfaceFor? (c : Config) (peer : IPv4) : Option InterfaceConfig :=
  c.interfaces.find? (·.contains peer)

/-- The interfaces as a router sees them. -/
def provided (c : Config) : List (Interface .ipv4) :=
  c.interfaces.map fun i => ⟨.name i.name, i.address⟩

/-- Where packets for an interface are sent: to the whole subnet of the first interface with that
name. -/
def target? (c : Config) (id : InterfaceId) : Option (String × IPv4 × UInt16) :=
  (c.interfaces.find? fun i => .name i.name = id).map fun i => (i.name, i.broadcast, c.port)

end Config

end Manet
