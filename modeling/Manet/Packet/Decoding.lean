import Manet.Packet

/-!
# Reading packets

A datagram is a packet if its length fields nest: the packet within the datagram, messages within
the packet, blocks within a HELLO, whole addresses within a block. One fault anywhere rejects all
of it (`DecodeError`). Within an accepted packet, blocks whose link code means nothing are left
out, reserved octets and unused bits are ignored, and so are octets after the packet's end.
-/

namespace Manet

/-- The messages whose bodies have a structure to get wrong. -/
inductive BodyKind where
  | hello
  | tc
  | mid
deriving DecidableEq, Repr

/-- Why a datagram is not a packet. -/
inductive DecodeError where
  | shortPacket (length : Nat)
  | lengthMismatch (declared actual : Nat)
  | noMessages
  | shortMessage (size : Nat)
  | messageOverrun (size remaining : Nat)
  | malformedBody (kind : BodyKind)
deriving DecidableEq, Repr

/-- The name of a message type. -/
def BodyKind.label : BodyKind → String
  | hello => "HELLO"
  | tc => "TC"
  | mid => "MID"

/-- The text of the error. -/
def DecodeError.message : DecodeError → String
  | shortPacket n => "datagram of " ++ toString n ++ " bytes is shorter than the packet header"
  | lengthMismatch declared actual =>
    "packet length field says " ++ toString declared ++ " bytes, datagram holds " ++ toString actual
  | noMessages => "packet carries no messages"
  | shortMessage n => "message size " ++ toString n ++ " is shorter than the message header"
  | messageOverrun size remaining =>
    "message size " ++ toString size ++ " overruns the " ++ toString remaining ++
      " bytes left in the packet"
  | malformedBody kind => "malformed " ++ kind.label ++ " message body"

variable {F : Family}

/-! ## Bodies -/

/-- Reads addresses up to the end, if it is the end of an address. -/
def addressesOfOctets? (bs : Octets) : Option (List (Address F)) :=
  if bs = [] then some []
  else
    match h : bs.splitFirst F.octets with
    | none => none
    | some (front, rest) =>
      have : rest.length < bs.length := Octets.length_lt_of_splitFirst F.octets_pos h
      (addressesOfOctets? rest).map (Address.ofOctets front :: ·)
termination_by bs.length

/-- Reads blocks up to the end, if it is the end of a block. -/
def blocksOfOctets? (bs : Octets) : Option (List (HelloBlock F)) :=
  match bs with
  | [] => some []
  | code :: _ :: high :: low :: body =>
    let size := Octets.toNat [high, low]
    if size < 4 then none
    else
      match h : Octets.splitFirst (size - 4) body with
      | none => none
      | some (front, rest) =>
        have : rest.length ≤ body.length := Octets.length_le_of_splitFirst h
        match addressesOfOctets? front, blocksOfOctets? rest with
        | some addresses, some blocks =>
          match LinkCode.ofOctet? code with
          | some code => some (⟨code, addresses⟩ :: blocks)
          | none => some blocks
        | _, _ => none
  | _ => none
termination_by bs.length

/-- Reads the body of a HELLO. -/
def helloOfOctets? : Octets → Option (Body F)
  | _ :: _ :: interval :: willingness :: rest =>
    (blocksOfOctets? rest).map (.hello ⟨interval⟩ (Willingness.ofOctet willingness))
  | _ => none

/-- Reads the body of a TC message. -/
def tcOfOctets? : Octets → Option (Body F)
  | high :: low :: _ :: _ :: rest =>
    (addressesOfOctets? rest).map (.tc (UInt16.ofNat (Octets.toNat [high, low])))
  | _ => none

/-- Reads a body of the given message type. -/
def Body.decode (kind : UInt8) (bs : Octets) : Except DecodeError (Body F) :=
  let orMalformed (name : BodyKind) (body : Option (Body F)) : Except DecodeError (Body F) :=
    match body with
    | some body => .ok body
    | none => .error (.malformedBody name)
  if kind = 1 then orMalformed .hello (helloOfOctets? bs)
  else if kind = 2 then orMalformed .tc (tcOfOctets? bs)
  else if kind = 3 then orMalformed .mid ((addressesOfOctets? bs).map .mid)
  else .ok (.unknown kind bs)

/-! ## Messages and packets -/

/-- Reads a message from the octets that its size field spans. -/
def Message.decode (bs : Octets) : Except DecodeError (Message F) :=
  match bs with
  | kind :: validity :: _ :: _ :: rest =>
    match Octets.splitFirst F.octets rest with
    | some (originator, ttl :: hops :: high :: low :: rest) => do
      let body ← Body.decode kind rest
      return {
        validity := ⟨validity⟩
        originator := Address.ofOctets originator
        ttl, hops
        seqno := UInt16.ofNat (Octets.toNat [high, low])
        body }
    | _ => .error (.shortMessage bs.length)
  | _ => .error (.shortMessage bs.length)

/-- The size field of a message. -/
def messageSizeField : Octets → Nat
  | _ :: _ :: high :: low :: _ => Octets.toNat [high, low]
  | _ => 0

/-- Reads messages up to the end, if it is the end of a message. -/
def messagesOfOctets (bs : Octets) : Except DecodeError (List (Message F)) :=
  if bs = [] then .ok []
  else if bs.splitFirst (Message.headerSize F) = none then .error (.shortMessage bs.length)
  else
    let size := messageSizeField bs
    if hs : size < Message.headerSize F then .error (.shortMessage size)
    else
      match h : bs.splitFirst size with
      | none => .error (.messageOverrun size bs.length)
      | some (front, rest) =>
        have : rest.length < bs.length :=
          Octets.length_lt_of_splitFirst (Nat.lt_of_lt_of_le (Message.headerSize_pos F) (Nat.le_of_not_lt hs)) h
        do
          let message ← Message.decode front
          let messages ← messagesOfOctets rest
          return message :: messages
termination_by bs.length

/-- Reads a datagram. -/
def Packet.decode (datagram : Octets) : Except DecodeError (Packet F) :=
  match datagram with
  | lengthHigh :: lengthLow :: seqnoHigh :: seqnoLow :: rest =>
    let declared := Octets.toNat [lengthHigh, lengthLow]
    if declared < Packet.headerSize then .error (.lengthMismatch declared datagram.length)
    else
      match Octets.splitFirst (declared - Packet.headerSize) rest with
      | none => .error (.lengthMismatch declared datagram.length)
      | some ([], _) => .error .noMessages
      | some (front, _) => do
        let messages ← messagesOfOctets front
        return { seqno := UInt16.ofNat (Octets.toNat [seqnoHigh, seqnoLow]), messages }
  | _ => .error (.shortPacket datagram.length)

end Manet
