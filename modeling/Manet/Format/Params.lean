import Manet.Format.Values
import Manet.Json.Printing
import Manet.Json.Reading
import Manet.Params

/-!
# Parameters in JSON

Every field may be left out and then has its default.
-/

namespace Manet.Params

/-- The fields of the parameters. -/
def jsonFields : List Json.Field :=
  [{ name := "hello_interval" }, { name := "refresh_interval" }, { name := "tc_interval" },
   { name := "mid_interval" }, { name := "neighbour_hold_time" }, { name := "topology_hold_time" },
   { name := "mid_hold_time" }, { name := "dup_hold_time" }, { name := "max_jitter" },
   { name := "max_messages" }, { name := "willingness" }, { name := "use_link_layer_feedback" },
   { name := "optimized_mid" }]

/-- The parameters as an object. -/
def toJson (p : Params) : Json :=
  .record [("hello_interval", Time.toJson p.helloInterval),
    ("refresh_interval", Time.toJson p.refreshInterval),
    ("tc_interval", Time.toJson p.tcInterval),
    ("mid_interval", Time.toJson p.midInterval),
    ("neighbour_hold_time", Time.toJson p.neighbourHoldTime),
    ("topology_hold_time", Time.toJson p.topologyHoldTime),
    ("mid_hold_time", Time.toJson p.midHoldTime),
    ("dup_hold_time", Time.toJson p.dupHoldTime),
    ("max_jitter", Time.toJson p.maxJitter),
    ("max_messages", .natural p.maxMessages),
    ("willingness", Willingness.toJson p.willingness),
    ("use_link_layer_feedback", .bool p.useLinkLayerFeedback),
    ("optimized_mid", .bool p.optimizedMid)]

/-- Reads parameters. -/
def ofJson? (j : Json) : Option Params :=
  match j.fields? false jsonFields with
  | some [hello, refresh, tc, mid, neighbourHold, topologyHold, midHold, dupHold, jitter, messages,
      willingness, feedback, optimized] => do
    let d : Params := {}
    some {
      helloInterval := ← Json.orDefault Time.ofJson? d.helloInterval hello
      refreshInterval := ← Json.orDefault Time.ofJson? d.refreshInterval refresh
      tcInterval := ← Json.orDefault Time.ofJson? d.tcInterval tc
      midInterval := ← Json.orDefault Time.ofJson? d.midInterval mid
      neighbourHoldTime := ← Json.orDefault Time.ofJson? d.neighbourHoldTime neighbourHold
      topologyHoldTime := ← Json.orDefault Time.ofJson? d.topologyHoldTime topologyHold
      midHoldTime := ← Json.orDefault Time.ofJson? d.midHoldTime midHold
      dupHoldTime := ← Json.orDefault Time.ofJson? d.dupHoldTime dupHold
      maxJitter := ← Json.orDefault Time.ofJson? d.maxJitter jitter
      maxMessages := ← Json.orDefault (Json.natural? (Json.greatest 64)) d.maxMessages messages
      willingness := ← Json.orDefault Willingness.ofJson? d.willingness willingness
      useLinkLayerFeedback := ← Json.orDefault Json.bool? d.useLinkLayerFeedback feedback
      optimizedMid := ← Json.orDefault Json.bool? d.optimizedMid optimized }
  | _ => none

/-- The text of parameters. -/
def toText (p : Params) : String := p.toJson.toCompactString

/-- Reads the text of parameters. -/
def ofText? (s : String) : Option Params := (Json.parse? s).bind ofJson?

end Manet.Params
