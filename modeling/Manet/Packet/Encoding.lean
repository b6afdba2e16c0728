import Manet.Packet

/-!
# Writing packets

The octets of blocks, messages and packets. Every level states its own length in 16 bits. A packet
that is longer than its length field can say has no encoding; `Packet.encode` gives the reason.
-/

namespace Manet

/-- A packet of `size` octets does not fit its length field. -/
structure Oversized where
  size : Nat
deriving DecidableEq, Repr

/-- The text of the error. -/
def Oversized.message (e : Oversized) : String :=
  "packet of " ++ toString e.size ++ " bytes overflows its length field"

variable {F : Family}

/-- The octets of a list of addresses. -/
def addressesToOctets (as : List (Address F)) : Octets := as.flatMap Address.toOctets

/-- The octets of a block of a HELLO. -/
def HelloBlock.toOctets (b : HelloBlock F) : Octets :=
  b.code.toOctet :: 0 :: (Octets.ofNat 2 b.size ++ addressesToOctets b.addresses)

/-- The octets of a body. -/
def Body.toOctets : Body F → Octets
  | .hello interval willingness blocks =>
    0 :: 0 :: interval.octet :: willingness.toOctet :: blocks.flatMap HelloBlock.toOctets
  | .tc ansn neighbours =>
    Octets.ofNat 2 ansn.toNat ++ 0 :: 0 :: addressesToOctets neighbours
  | .mid interfaces => addressesToOctets interfaces
  | .unknown _ payload => payload

/-- The octets of a message. -/
def Message.toOctets (m : Message F) : Octets :=
  m.body.kind :: m.validity.octet :: (Octets.ofNat 2 m.size ++ m.originator.toOctets ++
    m.ttl :: m.hops :: (Octets.ofNat 2 m.seqno.toNat ++ m.body.toOctets))

/-- The octets of a packet, its length modulo 65536. -/
def Packet.toOctets (p : Packet F) : Octets :=
  Octets.ofNat 2 p.size ++ Octets.ofNat 2 p.seqno.toNat ++ p.messages.flatMap Message.toOctets

/-- The octets of a packet that fits its length field. -/
def Packet.encode (p : Packet F) : Except Oversized Octets :=
  if p.size ≤ Packet.maxSize then .ok p.toOctets else .error ⟨p.size⟩

end Manet
