import Manet.Packet.Decoding
import Manet.Router.Flooding

/-!
# Running a router

The operations by which a host drives a router: `start` and `stop`, `handlePacket` for a datagram
that came in, `handleTimer` for a timer that is due, besides `linkFailed` and `refreshInterfaces`.
A router that is not running ignores datagrams and timers.
-/

namespace Manet

/-- Why a datagram was not taken in. -/
inductive PacketError where
  /-- The router does not know the interface that the datagram came in on. -/
  | unknownInterface (id : InterfaceId)
  | malformed (error : DecodeError)
deriving DecidableEq, Repr

/-- The text of the error. -/
def PacketError.message : PacketError → String
  | unknownInterface id => "packet arrived on unknown interface " ++ id.quoted
  | malformed error => "dropped malformed packet: " ++ error.message

namespace Router

variable {F : Family}

/-- Starts the router on the interfaces that the host provides. -/
def start (r : Router F) (provided : List (Interface F)) (now : Time) : Router F :=
  if r.running then r
  else
    let r := { r with running := true }.refreshInterfaces provided now
    let first := r.params.helloPeriod
    let (hello, r) := r.schedule first .hello
    let (tc, r) := r.schedule first .tc
    let (mid, r) := r.schedule first .mid
    { r with helloTimer := some hello, tcTimer := some tc, midTimer := some mid }.note
      (.started r.interfaces.length)

/-- The handles of the timers that watch over no tuple. -/
def ownTimers (r : Router F) : List Handle :=
  [r.helloTimer, r.tcTimer, r.midTimer, r.flushTimer].filterMap id

/-- Stops the router: cancels its timers, forgets what it knows and withdraws its routes. -/
def stop (r : Router F) : Router F :=
  if r.running then
    let r := r.ownTimers.foldl (fun r h => r.call (.cancel h)) r
    let withdrawn := r.routes.toList
    let r := { r.onStore Store.clear with
      running := false, helloTimer := none, tcTimer := none, midTimer := none, flushTimer := none,
      outbound := [], routes := ∅ }
    (withdrawn.foldl (fun r route => r.call (.routeRemoved route)) r).note .stopped
  else r

/-- The address of the interface with the given handle. -/
def interfaceAddress? (r : Router F) (id : InterfaceId) : Option (Address F) :=
  (r.interfaces.find? fun i => i.id = id).map (·.address)

/-- Takes in a datagram from the interface address `sender`. An error leaves the router as it
was. -/
def handlePacket (r : Router F) (id : InterfaceId) (sender : Address F) (datagram : Octets)
    (now : Time) : Except PacketError (Router F) :=
  if r.running then
    match r.interfaceAddress? id with
    | none => .error (.unknownInterface id)
    | some receiver =>
      match (Packet.decode datagram : Except DecodeError (Packet F)) with
      | .error e => .error (.malformed e)
      | .ok p =>
        let r := r.note (.packetReceived p.seqno p.messages.length sender)
        .ok ((p.messages.foldl (handleMessage receiver sender now) r).updateRoutes now)
  else .ok r

/-- Answers the timer for a tuple. -/
def expire (r : Router F) (key : TupleKey F) (generation : Nat) (now : Time) : Router F :=
  let (expiry, store) := r.toStore.expire key generation now
  let r := { r with toStore := store }
  match expiry with
  | .stale => r
  | .pending =>
    match r.tables.get? key with
    | some (.link t) => if t.isSymmetric now then r else r.checkNeighbour t none now
    | _ => r
  | .expired (.link t) => r.linkRemoved t now
  | .expired (.twoHop t) => ((r.note (.twoHopDropped t.twoHop t.neighbour)).updateRelays).updateRoutes now
  | .expired (.selector t) => r.note (.releasedBy t.main)
  | .expired (.topology _) | .expired (.association _) => r.updateRoutes now
  | .expired (.duplicate _) => r

/-- Answers a timer that is due. -/
def handleTimer (r : Router F) (timer : Timer F) (now : Time) : Router F :=
  if r.running then
    match timer with
    | .hello =>
      let (delay, r) := (r.sendHello now).periodicDelay r.params.helloPeriod
      let (handle, r) := r.schedule delay .hello
      { r with helloTimer := some handle }
    | .tc =>
      let r := if r.tables.selectors.isEmpty then r else r.sendTc
      let (delay, r) := r.periodicDelay r.params.tcInterval
      let (handle, r) := r.schedule delay .tc
      { r with tcTimer := some handle }
    | .mid =>
      let (delay, r) := r.sendMid.periodicDelay r.params.midInterval
      let (handle, r) := r.schedule delay .mid
      { r with midTimer := some handle }
    | .flush => { r with flushTimer := none }.flush
    | .expiry key generation => r.expire key generation now
  else r

end Router

end Manet
