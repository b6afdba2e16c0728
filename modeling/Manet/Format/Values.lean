import Manet.Address.Text
import Manet.Json.Fields
import Manet.SeqNum
import Manet.Time
import Manet.Willingness

/-!
# Values in JSON

How the values that configurations and snapshots share are written: a duration as seconds and
nanoseconds, an address as its text, a willingness as a number.
-/

namespace Manet

/-- The greatest number of each width. -/
def Json.greatest (bits : Nat) : Nat := (1 <<< bits) - 1

namespace Time

/-- The fields of a duration. -/
def jsonFields : List Json.Field := [{ name := "secs" }, { name := "nanos" }]

/-- A duration as seconds and nanoseconds. -/
def toJson (t : Time) : Json :=
  .record [("secs", .natural (t / 1000000000)), ("nanos", .natural (t % 1000000000))]

/-- Reads a duration. More nanoseconds than a second has count as seconds, which must not exceed 64
bits. -/
def ofJson? (j : Json) : Option Time :=
  match j.fields? true jsonFields with
  | some [secs, nanos] => do
    let secs ← secs.bind (Json.natural? (Json.greatest 64))
    let nanos ← nanos.bind (Json.natural? (Json.greatest 32))
    let t := Time.ofSeconds secs + nanos
    if t / 1000000000 ≤ Json.greatest 64 then some t else none
  | _ => none

end Time

namespace Address

variable {F : Family}

/-- An address as its text. -/
def toJson (a : Address F) : Json := .text a.toString

/-- Reads an address. -/
def ofJson? (j : Json) : Option (Address F) := j.string?.bind ofString?

end Address

namespace Willingness

/-- A willingness as a number. -/
def toJson (w : Willingness) : Json := .natural w.val

/-- Reads a willingness. -/
def ofJson? (j : Json) : Option Willingness := do
  let n ← j.natural? 7
  if h : n < 8 then some ⟨n, h⟩ else none

end Willingness

namespace SeqNum

/-- A sequence number as a number. -/
def toJson (s : SeqNum) : Json := .natural s.toNat

/-- Reads a sequence number. -/
def ofJson? (j : Json) : Option SeqNum := (j.natural? (Json.greatest 16)).map UInt16.ofNat

end SeqNum

end Manet
