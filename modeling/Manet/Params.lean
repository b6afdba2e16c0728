import Manet.Time
import Manet.Willingness

/-!
# Protocol parameters

The intervals, hold times and habits of a router, with the values that RFC 3626 proposes (section
18).
-/

namespace Manet

/-- The intervals, hold times and habits of a router. -/
structure Params where
  helloInterval : Time := .ofSeconds 2
  /-- Every link is advertised at least this often: HELLOs go out at the shorter interval. -/
  refreshInterval : Time := .ofSeconds 2
  tcInterval : Time := .ofSeconds 5
  midInterval : Time := .ofSeconds 5
  neighbourHoldTime : Time := .ofSeconds 6
  topologyHoldTime : Time := .ofSeconds 15
  midHoldTime : Time := .ofSeconds 15
  dupHoldTime : Time := .ofSeconds 30
  /-- The longest random delay of an emission. -/
  maxJitter : Time := 500000000
  /-- How many messages a packet may carry. -/
  maxMessages : Nat := 64
  willingness : Willingness := .standard
  /-- Whether the link layer is believed when it reports a failed transmission. -/
  useLinkLayerFeedback : Bool := false
  /-- Whether a node with a single interface sends no MID messages. -/
  optimizedMid : Bool := true
deriving DecidableEq

/-- The time between two HELLOs. -/
def Params.helloPeriod (p : Params) : Time := min p.helloInterval p.refreshInterval

end Manet
