import Manet.Time

/-!
# Double precision

The numbers of the IEEE 754 binary64 format, read from their bits as exact rationals, and rounding
to the nearest of them. `Binary64.toUnits` measures a time in the units of the octet code.
-/

namespace Manet

/-- A double precision number. -/
inductive Binary64 where
  | nan
  | infinity (negative : Bool)
  | finite (value : Rat)

namespace Binary64

/-- The number with the given bits: a sign, eleven bits of exponent and 52 bits of fraction. -/
def ofBits (w : UInt64) : Binary64 :=
  let negative : Bool := w.toNat >>> 63 = 1
  let exponent := w.toNat >>> 52 % 2048
  let fraction := w.toNat % 1 <<< 52
  if exponent = 2047 then
    if fraction = 0 then .infinity negative else .nan
  else
    let magnitude : Rat :=
      if exponent = 0 then mkRat fraction (1 <<< 1074)
      else if 1075 ≤ exponent then ((1 <<< 52 + fraction) <<< (exponent - 1075) : Nat)
      else mkRat (1 <<< 52 + fraction : Nat) (1 <<< (1075 - exponent))
    .finite (if negative then -magnitude else magnitude)

/-- The time in whole units of 1/256 s: none for what is negative or not a number, and infinity is
as good as the ceiling of the code. -/
def toUnits : Binary64 → Nat
  | nan => 0
  | infinity negative => if negative then 0 else TimeCode.ceiling
  | finite x => TimeCode.unitsOfSeconds x

/-! ## Rounding -/

/-- The integer nearest to `n / d`, of two equally near ones the even one. -/
def roundDiv (n d : Nat) : Nat :=
  let q := n / d
  let r := n % d
  if 2 * r < d then q
  else if d < 2 * r then q + 1
  else q + q % 2

/-- The integer nearest to a number that is not negative. -/
def roundToInteger (x : Rat) : Nat := roundDiv x.num.toNat x.den

/-- The exponent of the greatest power of two that is at most `x`, a positive number. -/
def binaryExponent (x : Rat) : Int :=
  let e := (x.num.toNat.log2 : Int) - x.den.log2
  if (2 : Rat) ^ e ≤ x then e else e - 1

/-- The nearest number with 53 significant bits, of two equally near ones the one with the even
last bit. This is rounding to binary64 for zero and for positive numbers of the normal range. -/
def nearest (x : Rat) : Rat :=
  let e := binaryExponent x
  roundToInteger (x * (2 : Rat) ^ (52 - e)) * (2 : Rat) ^ (e - 52)

end Binary64

end Manet
