import Manet.Packet.Batching
import Manet.Packet.Encoding
import Manet.Router.Basic

/-!
# Outbound messages

Messages wait in a queue for a random delay, so that they share packets and neighbours do not
transmit in lockstep. A flush sends all of them out of every interface.
-/

namespace Manet.Router

variable {F : Family}

/-- The hop limit of flooded messages. -/
def floodTtl : UInt8 := 255

/-- Lets a message wait for the next flush, which is scheduled unless one is pending. -/
def enqueue (r : Router F) (m : Message F) : Router F :=
  let r := { r with outbound := r.outbound ++ [m] }
  if r.flushTimer.isSome then r
  else
    let (delay, r) := r.drawJitter
    let (handle, r) := r.schedule delay .flush
    { r with flushTimer := some handle }

/-- Lets a message of this node wait, with the next sequence number. -/
def originate (r : Router F) (validity : Time) (ttl : UInt8) (body : Body F) : Router F :=
  let seqno := r.messageSeqno.next
  { r with messageSeqno := seqno }.enqueue
    { validity := .ofDuration validity, originator := r.address, ttl, hops := 0, seqno, body }

/-- Sends a packet with the given messages out of every interface. -/
def sendPacket (r : Router F) (messages : List (Message F)) : Router F :=
  let packet : Packet F := { seqno := r.packetSeqno.next, messages }
  let r := { r with packetSeqno := packet.seqno }
  match packet.encode with
  | .ok octets => r.interfaces.foldl (fun r i => r.call (.broadcast i.id octets)) r
  | .error e => r.call (.oversized e.size)

/-- Sends all messages that wait. -/
def flush (r : Router F) : Router F :=
  let batches := Packet.batches r.params.maxMessages r.outbound
  batches.foldl sendPacket { r with outbound := [] }

/-- The delay until the next emission of a kind that has the given interval. -/
def periodicDelay (r : Router F) (interval : Time) : Time × Router F :=
  let (jitter, r) := r.drawJitter
  (interval - jitter, r)

end Manet.Router
