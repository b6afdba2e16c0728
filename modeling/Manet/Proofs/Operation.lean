import Manet.Router.Run

/-!
# Runs of a router

`Operation` is everything that a host may ask of a router, and `Router.apply` carries one out at a
clock reading. `Router.Reachable` holds of every router that operations lead to from its creation,
whatever the packets, timers and reports are, as long as the clock never goes back.
-/

namespace Manet

variable {F : Family}

/-- What a host may ask of a router. -/
inductive Operation (F : Family) where
  | start (provided : List (Interface F))
  | stop
  | packet (id : InterfaceId) (sender : Address F) (datagram : Octets)
  | timer (timer : Timer F)
  | linkFailed (destination : Address F)
  | refresh (provided : List (Interface F))

namespace Router

/-- Carries out an operation. A datagram that is not taken in changes nothing. -/
def apply (r : Router F) (now : Time) : Operation F → Router F
  | .start provided => r.start provided now
  | .stop => r.stop
  | .packet id sender datagram =>
    match r.handlePacket id sender datagram now with
    | .ok r => r
    | .error _ => r
  | .timer timer => r.handleTimer timer now
  | .linkFailed destination => r.linkFailed destination now
  | .refresh provided => r.refreshInterfaces provided now

/-- The routers that a run leads to, with the time of the last operation. -/
inductive Reachable : Router F → Time → Prop where
  | create (address : Address F) (params : Params) (entropy : Entropy) :
      Reachable (create address params entropy) 0
  | apply {r : Router F} {t now : Time} (op : Operation F) :
      Reachable r t → t ≤ now → Reachable (r.apply now op) now

/-! ## A small run -/

/-- The node 10.0.0.1. -/
def sampleAddress : Address .ipv4 := .ofNat 0x0a000001

/-- A HELLO of its neighbour 10.0.0.2, which hears it and lives next to 10.0.0.3. -/
def sampleHello : Octets :=
  [0, 32, 0, 0, 1, 0x8a, 0, 28, 10, 0, 0, 2, 1, 0, 0, 0, 0, 0, 5, 3, 6, 0, 0, 12, 10, 0, 0, 1,
    10, 0, 0, 3]

/-- The start of the node on its one interface. -/
def sampleStart : Operation .ipv4 := .start [⟨.number 0, sampleAddress⟩]

/-- The reception of the HELLO. -/
def sampleReception : Operation .ipv4 := .packet (.number 0) (.ofNat 0x0a000002) sampleHello

/-- A router that took the HELLO in. -/
def sample : Router .ipv4 :=
  ((create sampleAddress {} (.cycle #[])).apply 0 sampleStart).apply 0 sampleReception

theorem sample_reachable : sample.Reachable 0 :=
  .apply _ (.apply _ (.create _ _ _) (Nat.le_refl 0)) (Nat.le_refl 0)

end Router

end Manet
