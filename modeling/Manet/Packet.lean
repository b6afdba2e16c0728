import Manet.Address
import Manet.LinkCode
import Manet.SeqNum
import Manet.Time
import Manet.Willingness

/-!
# Packets

A packet carries messages of its sender and messages that it relays (RFC 3626, section 3.3). HELLO
messages list the sender's links, TC messages the neighbours that selected the originator as relay,
MID messages its further interfaces; messages of any other type are relayed without being
understood. The sizes that the length fields describe are given here, the octets themselves in
`Manet.Packet.Encoding` and `Manet.Packet.Decoding`.
-/

namespace Manet

/-- The neighbour interfaces that a HELLO lists under one link code. -/
structure HelloBlock (F : Family) where
  code : LinkCode
  addresses : List (Address F)
deriving DecidableEq

/-- The contents of a message. -/
inductive Body (F : Family) where
  /-- `interval` is the time between two HELLOs of the sender. -/
  | hello (interval : TimeCode) (willingness : Willingness) (blocks : List (HelloBlock F))
  /-- `ansn` numbers the states of the set of advertised neighbours. -/
  | tc (ansn : SeqNum) (neighbours : List (Address F))
  | mid (interfaces : List (Address F))
  | unknown (kind : UInt8) (payload : Octets)
deriving DecidableEq

/-- A message. `ttl` is how many hops it may still travel, `hops` how many it has travelled. -/
structure Message (F : Family) where
  validity : TimeCode
  originator : Address F
  ttl : UInt8
  hops : UInt8
  seqno : SeqNum
  body : Body F
deriving DecidableEq

/-- A packet. -/
structure Packet (F : Family) where
  seqno : SeqNum
  messages : List (Message F)
deriving DecidableEq

variable {F : Family}

namespace Body

/-- The message type on the wire. -/
def kind : Body F → UInt8
  | hello .. => 1
  | tc .. => 2
  | mid .. => 3
  | unknown kind _ => kind

/-- Whether this is a HELLO, which is never relayed. -/
def isHello : Body F → Bool
  | hello .. => true
  | _ => false

end Body

/-! ## Sizes -/

/-- The octets of a list of addresses. -/
def addressesSize (as : List (Address F)) : Nat := as.length * F.octets

/-- The octets of a block with its header. -/
def HelloBlock.size (b : HelloBlock F) : Nat := 4 + addressesSize b.addresses

/-- The octets of blocks one after the other. -/
def blocksSize : List (HelloBlock F) → Nat
  | [] => 0
  | b :: bs => b.size + blocksSize bs

/-- The octets of a body. -/
def Body.size : Body F → Nat
  | .hello _ _ blocks => 4 + blocksSize blocks
  | .tc _ neighbours => 4 + addressesSize neighbours
  | .mid interfaces => addressesSize interfaces
  | .unknown _ payload => payload.length

/-- The octets of a message header. -/
def Message.headerSize (F : Family) : Nat := 8 + F.octets

theorem Message.headerSize_pos (F : Family) : 0 < Message.headerSize F := by
  rw [Message.headerSize]
  omega

/-- The octets of a message. -/
def Message.size (m : Message F) : Nat := Message.headerSize F + m.body.size

/-- The octets of messages one after the other. -/
def messagesSize : List (Message F) → Nat
  | [] => 0
  | m :: ms => m.size + messagesSize ms

/-- The octets of a packet header. -/
def Packet.headerSize : Nat := 4

/-- The octets of a packet. -/
def Packet.size (p : Packet F) : Nat := Packet.headerSize + messagesSize p.messages

/-- The greatest length that a packet can state. -/
def Packet.maxSize : Nat := 65535

end Manet
