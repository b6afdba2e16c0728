/-!
# Time

Points in time and durations are whole nanoseconds; the clock starts at zero. Messages carry
durations in one octet, as a mantissa and an exponent (RFC 3626, section 18.3): with high nibble
`a` and low nibble `b` the octet means `(16 + a) * 2 ^ b` units of 1/256 s. `TimeCode.ofUnits`
rounds down to a multiple of `2 ^ b`, and clamps what is below 1/16 s or beyond the greatest code.
-/

namespace Manet

/-- A point in time or a duration, in nanoseconds. -/
abbrev Time := Nat

/-- Whole seconds. -/
def Time.ofSeconds (s : Nat) : Time := s * 1000000000

/-- A duration as one octet. -/
structure TimeCode where
  octet : UInt8
deriving DecidableEq, Repr

namespace TimeCode

/-- The unit of the code, 1/256 s. -/
def unit : Time := 3906250

/-- The smallest number of units that has a code of its own. -/
def scale : Nat := 16

/-- From this number of units on, all durations have the greatest code. -/
def ceiling : Nat := 1048576

/-- The high nibble. -/
def mantissa (c : TimeCode) : Nat := c.octet.toNat / 16

/-- The low nibble. -/
def exponent (c : TimeCode) : Nat := c.octet.toNat % 16

/-- The units that the code stands for. -/
def units (c : TimeCode) : Nat := (16 + c.mantissa) <<< c.exponent

/-- The exponent of the code of `u` units, within its four bits. -/
def exponentOf (u : Nat) : Nat := min (u.log2 - 4) 15

/-- The distance between neighbouring codes around `u` units. -/
def stepUnits (u : Nat) : Nat := 1 <<< exponentOf u

/-- The code of `u` units. -/
def ofUnits (u : Nat) : TimeCode :=
  if u < scale then ⟨0x10⟩
  else if ceiling ≤ u then ⟨0xff⟩
  else ⟨UInt8.ofNat ((u / stepUnits u - 16) * 16 + exponentOf u)⟩

/-- The duration that the code stands for. -/
def duration (c : TimeCode) : Time := c.units * unit

/-- The code of a duration. -/
def ofDuration (d : Time) : TimeCode := ofUnits (d / unit)

/-! ## In seconds -/

/-- The seconds that a number of units make. -/
def secondsOfUnits (u : Nat) : Rat := u / 256

/-- The whole units in a number of seconds, none in a negative one. -/
def unitsOfSeconds (x : Rat) : Nat := (256 * x).floor.toNat

/-- The seconds that the code stands for. -/
def seconds (c : TimeCode) : Rat := secondsOfUnits c.units

/-- The code of a number of seconds. -/
def ofSeconds (x : Rat) : TimeCode := ofUnits (unitsOfSeconds x)

/-- The distance between neighbouring codes around a number of seconds. -/
def step (x : Rat) : Rat := secondsOfUnits (stepUnits (unitsOfSeconds x))

end TimeCode

end Manet
