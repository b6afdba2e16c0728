import Mathlib.Tactic.FieldSimp
import Mathlib.Tactic.Ring
import Manet.Proofs.Doubles

/-!
# Durations in one octet

A code never overstates a duration and understates it by less than a step (`TimeCode.ofSeconds_isTight`),
because it is the greatest code that does not overstate it:

* `TimeCode.div_stepUnits` and `TimeCode.fields_ofUnits`: in steps of its exponent a number of units is
  sixteen and a mantissa, and both fields fit their four bits;
* `TimeCode.seconds_le_seconds_ofSeconds_iff`: what a code stands for is at most the code of `x` seconds if
  and only if it is at most `x`.

The fields are computed from seconds by a search for the exponent and a truncation, in double precision.
Without rounding the search finds the fields of the code (`TimeCode.computeFields_id`), and rounding changes
nothing, since every step is exact (`TimeCode.computeFields_nearest`).
-/

namespace Manet.TimeCode

/-! ## Exponents -/

theorem stepUnits_eq (u : Nat) : stepUnits u = 2 ^ exponentOf u := Nat.one_shiftLeft _

theorem units_eq (c : TimeCode) : c.units = (16 + c.mantissa) * 2 ^ c.exponent := Nat.shiftLeft_eq ..

theorem mantissa_lt (c : TimeCode) : c.mantissa < 16 := by
  have := c.octet.toNat_lt
  rw [mantissa]
  omega

theorem exponent_lt (c : TimeCode) : c.exponent < 16 := Nat.mod_lt _ (by decide)

theorem octet_toNat (c : TimeCode) : c.octet.toNat = 16 * c.mantissa + c.exponent :=
  (Nat.div_add_mod ..).symm

/-- The powers of two up to a number of units, which are counted by its logarithm. -/
theorem scale_mul_two_pow_le_iff {u b : Nat} : scale * 2 ^ b ≤ u ↔ b < u.log2 - 3 := by
  rcases Nat.eq_zero_or_pos u with rfl | hpos
  · have := Nat.two_pow_pos b
    simp [scale]
  · rw [show scale * 2 ^ b = 2 ^ (b + 4) by rw [Nat.pow_add, Nat.mul_comm]; rfl, ← Nat.le_log2 hpos.ne']
    omega

/-- The exponent of a number of units that has a code of its own. -/
theorem exponentOf_eq_iff {u b : Nat} (hu : scale ≤ u) (hu' : u < ceiling) :
    exponentOf u = b ↔ scale * 2 ^ b ≤ u ∧ u < scale * 2 ^ (b + 1) := by
  have hlow : 0 < u.log2 - 3 := scale_mul_two_pow_le_iff.mp (by simpa using hu)
  have hhigh : ¬ 16 < u.log2 - 3 := fun h => absurd (scale_mul_two_pow_le_iff.mpr h) (Nat.not_le.mpr hu')
  rw [exponentOf, ← Nat.not_le, scale_mul_two_pow_le_iff, scale_mul_two_pow_le_iff]
  omega

theorem exponentOf_le (u : Nat) : exponentOf u ≤ 15 := Nat.min_le_right ..

/-- In steps of its exponent, a number of units is sixteen and a mantissa. -/
theorem div_stepUnits {u : Nat} (hu : scale ≤ u) (hu' : u < ceiling) :
    16 ≤ u / stepUnits u ∧ u / stepUnits u < 32 := by
  obtain ⟨hlow, hhigh⟩ := (exponentOf_eq_iff hu hu').mp rfl
  rw [stepUnits_eq, Nat.le_div_iff_mul_le (Nat.two_pow_pos _), Nat.div_lt_iff_lt_mul (Nat.two_pow_pos _)]
  rw [Nat.pow_succ, Nat.mul_comm _ 2, ← Nat.mul_assoc] at hhigh
  exact ⟨hlow, hhigh⟩

/-! ## Codes of units -/

theorem ext_fields {c d : TimeCode} (hmantissa : c.mantissa = d.mantissa)
    (hexponent : c.exponent = d.exponent) : c = d := by
  obtain ⟨o⟩ := c
  obtain ⟨o'⟩ := d
  have heq : o.toNat = o'.toNat := by
    rw [octet_toNat ⟨o⟩, octet_toNat ⟨o'⟩, hmantissa, hexponent]
  rw [UInt8.toNat_inj.mp heq]

/-- Nothing is lost when mantissa and exponent are put into an octet. -/
theorem fields_ofUnits {u : Nat} (hu : scale ≤ u) (hu' : u < ceiling) :
    (ofUnits u).mantissa = u / stepUnits u - 16 ∧ (ofUnits u).exponent = exponentOf u := by
  have hmantissa := div_stepUnits hu hu'
  have hexponent := exponentOf_le u
  rw [ofUnits, if_neg (Nat.not_lt.mpr hu), if_neg (Nat.not_le.mpr hu'), mantissa, exponent, UInt8.toNat_ofNat']
  omega

/-- A number of units is rounded down to whole steps. -/
theorem units_ofUnits {u : Nat} (hu : scale ≤ u) (hu' : u < ceiling) :
    (ofUnits u).units = u / stepUnits u * stepUnits u := by
  obtain ⟨hmantissa, hexponent⟩ := fields_ofUnits hu hu'
  rw [units_eq, hmantissa, hexponent, Nat.add_sub_cancel' (div_stepUnits hu hu').1, stepUnits_eq]

theorem ofUnits_of_ceiling_le {u : Nat} (hu : ceiling ≤ u) : ofUnits u = ⟨0xff⟩ := by
  have hscale : ¬ u < scale := Nat.not_lt.mpr (Nat.le_trans (by decide) hu)
  rw [ofUnits, if_neg hscale, if_pos hu]

theorem scale_mul_two_pow_le_units (c : TimeCode) : scale * 2 ^ c.exponent ≤ c.units := by
  rw [units_eq]
  exact Nat.mul_le_mul_right _ (Nat.le_add_right ..)

theorem units_lt_scale_mul_two_pow (c : TimeCode) : c.units < scale * 2 ^ (c.exponent + 1) := by
  have hmantissa := c.mantissa_lt
  rw [units_eq, Nat.pow_succ, Nat.mul_comm _ 2, ← Nat.mul_assoc]
  refine Nat.mul_lt_mul_of_pos_right ?_ (Nat.two_pow_pos _)
  rw [scale]
  omega

theorem scale_le_units (c : TimeCode) : scale ≤ c.units :=
  Nat.le_trans (Nat.le_mul_of_pos_right _ (Nat.two_pow_pos _)) c.scale_mul_two_pow_le_units

theorem units_lt_ceiling (c : TimeCode) : c.units < ceiling :=
  Nat.lt_of_lt_of_le c.units_lt_scale_mul_two_pow
    (Nat.mul_le_mul_left scale (Nat.pow_le_pow_right (by decide) c.exponent_lt))

theorem units_le_greatest (c : TimeCode) : c.units ≤ units ⟨0xff⟩ := by
  have hmantissa : 16 + c.mantissa ≤ 31 := Nat.add_le_add_left (Nat.le_of_lt_succ c.mantissa_lt) 16
  have hpower : 2 ^ c.exponent ≤ 2 ^ 15 :=
    Nat.pow_le_pow_right Nat.two_pos (Nat.le_of_lt_succ c.exponent_lt)
  calc c.units = (16 + c.mantissa) * 2 ^ c.exponent := c.units_eq
    _ ≤ 31 * 2 ^ 15 := Nat.mul_le_mul hmantissa hpower
    _ = units ⟨0xff⟩ := by decide

theorem ofUnits_units (c : TimeCode) : ofUnits c.units = c := by
  have hexponent : exponentOf c.units = c.exponent :=
    (exponentOf_eq_iff c.scale_le_units c.units_lt_ceiling).mpr
      ⟨c.scale_mul_two_pow_le_units, c.units_lt_scale_mul_two_pow⟩
  have hsteps : c.units / stepUnits c.units = 16 + c.mantissa := by
    rw [stepUnits_eq, hexponent, units_eq, Nat.mul_div_cancel _ (Nat.two_pow_pos _)]
  obtain ⟨hm, he⟩ := fields_ofUnits c.scale_le_units c.units_lt_ceiling
  rw [hsteps, Nat.add_sub_cancel_left] at hm
  exact ext_fields hm (he.trans hexponent)

/-- The code of a number of units is the greatest that does not overstate it. -/
theorem units_le_units_ofUnits_iff {c : TimeCode} {u : Nat} (hu : scale ≤ u) :
    c.units ≤ (ofUnits u).units ↔ c.units ≤ u := by
  rcases Nat.lt_or_ge u ceiling with hu' | hu'
  · rw [units_ofUnits hu hu']
    refine ⟨fun h => Nat.le_trans h (Nat.div_mul_le_self ..), fun h => ?_⟩
    have hpos : 0 < stepUnits u := stepUnits_eq u ▸ Nat.two_pow_pos _
    rcases Nat.lt_or_ge c.exponent (exponentOf u) with hlt | hge
    · -- a smaller exponent stays below the first code of the greater one
      calc c.units ≤ scale * 2 ^ (c.exponent + 1) := c.units_lt_scale_mul_two_pow.le
        _ ≤ scale * stepUnits u := by
          rw [stepUnits_eq]
          exact Nat.mul_le_mul_left scale (Nat.pow_le_pow_right (by decide) hlt)
        _ ≤ u / stepUnits u * stepUnits u := Nat.mul_le_mul_right _ (div_stepUnits hu hu').1
    · -- with the same exponent or a greater one the code stands for whole steps
      obtain ⟨k, hk⟩ : stepUnits u ∣ c.units := by
        rw [stepUnits_eq, units_eq]
        exact Nat.dvd_mul_left_of_dvd (Nat.pow_dvd_pow 2 hge) _
      rw [hk, Nat.mul_comm] at h ⊢
      exact Nat.mul_le_mul_right _ ((Nat.le_div_iff_mul_le hpos).mpr h)
  · rw [ofUnits_of_ceiling_le hu']
    exact iff_of_true c.units_le_greatest (c.units_lt_ceiling.le.trans hu')

theorem lt_units_ofUnits_add {u : Nat} (hu : scale ≤ u) (hu' : u < ceiling) :
    u < (ofUnits u).units + stepUnits u := by
  rw [units_ofUnits hu hu', Nat.mul_comm]
  exact Nat.lt_mul_div_succ u (stepUnits_eq u ▸ Nat.two_pow_pos _)

/-! ## Codes of seconds -/

theorem le_unitsOfSeconds_iff {n : Nat} (hn : 0 < n) {x : Rat} :
    n ≤ unitsOfSeconds x ↔ secondsOfUnits n ≤ x := by
  have hfloor : (n : Int) ≤ (256 * x).floor ↔ (n : Rat) ≤ 256 * x := Rat.le_floor_iff
  rw [unitsOfSeconds, secondsOfUnits, div_le_iff₀' (by norm_num), ← hfloor]
  omega

theorem unitsOfSeconds_secondsOfUnits (n : Nat) : unitsOfSeconds (secondsOfUnits n) = n := by
  rw [unitsOfSeconds, secondsOfUnits, mul_div_cancel₀ _ (by norm_num)]
  exact (congrArg Int.toNat (Rat.floor_intCast n)).trans (Int.toNat_natCast n)

theorem ofSeconds_seconds (c : TimeCode) : ofSeconds c.seconds = c := by
  rw [ofSeconds, seconds, unitsOfSeconds_secondsOfUnits, ofUnits_units]

/-- What the first code stands for, in seconds. -/
def shortest : Rat := 1 / 16

theorem secondsOfUnits_scale_mul (b : Nat) : secondsOfUnits (scale * 2 ^ b) = shortest * 2 ^ b := by
  rw [secondsOfUnits, shortest, scale]
  push_cast
  ring

theorem shortest_mul_two_pow_le_iff {x : Rat} {b : Nat} :
    shortest * 2 ^ b ≤ x ↔ b < (unitsOfSeconds x).log2 - 3 := by
  rw [← secondsOfUnits_scale_mul, ← le_unitsOfSeconds_iff (by simp [scale]), scale_mul_two_pow_le_iff]

theorem scale_le_unitsOfSeconds_iff {x : Rat} : scale ≤ unitsOfSeconds x ↔ shortest ≤ x := by
  rw [le_unitsOfSeconds_iff (by decide), ← Nat.mul_one scale, ← Nat.pow_zero 2, secondsOfUnits_scale_mul,
    pow_zero, mul_one]

theorem ceiling_le_unitsOfSeconds_iff {x : Rat} : ceiling ≤ unitsOfSeconds x ↔ shortest * 2 ^ 16 ≤ x := by
  rw [le_unitsOfSeconds_iff (by decide), ← secondsOfUnits_scale_mul]
  rfl

/-- The code of a number of seconds is the greatest that does not overstate it. -/
theorem seconds_le_seconds_ofSeconds_iff {c : TimeCode} {x : Rat} (hx : shortest ≤ x) :
    c.seconds ≤ (ofSeconds x).seconds ↔ c.seconds ≤ x := by
  have hpos : 0 < c.units := Nat.lt_of_lt_of_le (by decide) c.scale_le_units
  rw [seconds, ← le_unitsOfSeconds_iff hpos, ← le_unitsOfSeconds_iff hpos, seconds,
    unitsOfSeconds_secondsOfUnits, ofSeconds, units_le_units_ofUnits_iff (scale_le_unitsOfSeconds_iff.mpr hx)]

theorem seconds_ofSeconds_le {x : Rat} (hx : shortest ≤ x) : (ofSeconds x).seconds ≤ x :=
  (seconds_le_seconds_ofSeconds_iff hx).mp le_rfl

theorem seconds_ofSeconds_mono {x y : Rat} (hx : shortest ≤ x) (hxy : x ≤ y) :
    (ofSeconds x).seconds ≤ (ofSeconds y).seconds :=
  (seconds_le_seconds_ofSeconds_iff (hx.trans hxy)).mpr ((seconds_ofSeconds_le hx).trans hxy)

theorem lt_seconds_ofSeconds_add {x : Rat} (hx : shortest ≤ x) (hx' : x < shortest * 2 ^ 16) :
    x < (ofSeconds x).seconds + step x := by
  have hlt := lt_units_ofUnits_add (scale_le_unitsOfSeconds_iff.mpr hx)
    (Nat.lt_of_not_le fun h => absurd (ceiling_le_unitsOfSeconds_iff.mp h) (not_le.mpr hx'))
  have hunits : x < secondsOfUnits (unitsOfSeconds x + 1) :=
    lt_of_not_ge fun h => absurd ((le_unitsOfSeconds_iff (Nat.succ_pos _)).mpr h) (Nat.not_succ_le_self _)
  calc x < secondsOfUnits (unitsOfSeconds x + 1) := hunits
    _ ≤ secondsOfUnits ((ofSeconds x).units + stepUnits (unitsOfSeconds x)) := by
      rw [secondsOfUnits, secondsOfUnits]
      exact div_le_div_of_nonneg_right (Nat.cast_le.mpr hlt) (by norm_num)
    _ = (ofSeconds x).seconds + step x := by
      rw [seconds, step, secondsOfUnits, secondsOfUnits, secondsOfUnits, Nat.cast_add, add_div]

/-! ## The computation in double precision -/

section Computation

-- what becomes of the result of each operation
variable (round : Rat → Rat)

/-- The exponent as it is searched for: the last of the powers of two, tried one after the other up to the
sixteenth, that is at most `x`, in units of the first code; `-1` if even one is too great. -/
def searchExponent (x : Rat) : Int :=
  ((List.range 17).takeWhile fun b => (2 : Rat) ^ b ≤ round (x / shortest)).length - 1

/-- The fraction of `x` for the exponent `b`, in sixteenths. -/
def sixteenths (x : Rat) (b : Nat) : Rat :=
  round (16 * round (round (x / round (shortest * 2 ^ b)) - 1))

/-- Turns what is too great for a mantissa into exponents. -/
def carry (a b : Nat) : Nat × Nat := if 16 ≤ a then carry (a - 16) (b + 1) else (a, b)

/-- Mantissa and exponent of a number of seconds. -/
def computeFields (x : Rat) : Nat × Nat :=
  let b := searchExponent round x
  if b < 0 then (1, 0)
  else if 15 < b then (15, 15)
  else
    let (a, b) := carry (sixteenths round x b.toNat).floor.toNat b.toNat
    if 15 < b then (15, 15) else (a, b)

/-- The distance between neighbouring codes around `x`. -/
def computeStep (x : Rat) : Rat :=
  round (round (shortest * 2 ^ (min (max (searchExponent round x) 0) 15).toNat) / 16)

/-- The seconds that a code stands for. -/
def computeSeconds (c : TimeCode) : Rat :=
  round (round (shortest * round (1 + round (c.mantissa / 16))) * 2 ^ c.exponent)

end Computation

theorem length_takeWhile_lt (start n k : Nat) :
    ((List.range' start n).takeWhile (· < k)).length = min n (k - start) := by
  induction n generalizing start with
  | zero => simp
  | succ n ih =>
    rw [List.range'_succ, List.takeWhile_cons]
    split
    · rename_i hlt
      rw [List.length_cons, ih]
      have := of_decide_eq_true hlt
      omega
    · rename_i hge
      have := of_decide_eq_false (Bool.not_eq_true _ ▸ hge)
      rw [List.length_nil]
      omega

theorem searchExponent_id (x : Rat) :
    searchExponent id x = (min 17 ((unitsOfSeconds x).log2 - 3) : Nat) - 1 := by
  have htest (b : Nat) : (2 : Rat) ^ b ≤ x / shortest ↔ b < (unitsOfSeconds x).log2 - 3 := by
    rw [← shortest_mul_two_pow_le_iff, le_div_iff₀' (by norm_num [shortest])]
  rw [searchExponent, List.range_eq_range']
  simp only [id, htest, length_takeWhile_lt, Nat.sub_zero]

/-- The exponent that is found is the one that the code has, if the code has one of its own for it. -/
theorem searchExponent_cases (x : Rat) :
    searchExponent id x = -1 ∧ unitsOfSeconds x < scale ∨
      searchExponent id x = 16 ∧ ceiling ≤ unitsOfSeconds x ∨
      searchExponent id x = exponentOf (unitsOfSeconds x) ∧
        scale ≤ unitsOfSeconds x ∧ unitsOfSeconds x < ceiling := by
  have hscale := scale_mul_two_pow_le_iff (u := unitsOfSeconds x) (b := 0)
  have hceiling := scale_mul_two_pow_le_iff (u := unitsOfSeconds x) (b := 16)
  rw [searchExponent_id, exponentOf]
  simp only [scale, ceiling] at *
  omega

/-- Truncation of the fraction is whole division of the units. -/
theorem floor_sixteenths {x : Rat} {b : Nat} (hx : 0 ≤ x) :
    (sixteenths id x b).floor.toNat = unitsOfSeconds x / 2 ^ b - 16 := by
  have hexact : sixteenths id x b = 256 * x / (2 ^ b : Nat) - 16 := by
    simp only [sixteenths, shortest, id]
    push_cast
    field_simp
    ring
  have hfloor : (sixteenths id x b).floor = (256 * x).floor / (2 ^ b : Nat) - 16 := by
    rw [hexact]
    exact (Int.floor_sub_ofNat _ 16).trans (congrArg (· - 16) (Int.floor_div_natCast (256 * x) (2 ^ b)))
  have hunits : (256 * x).floor = unitsOfSeconds x := by
    rw [unitsOfSeconds, Int.toNat_of_nonneg]
    exact Rat.le_floor_iff.mpr (by simpa using hx)
  rw [hfloor, hunits]
  omega

theorem carry_of_lt {a : Nat} (h : a < 16) (b : Nat) : carry a b = (a, b) := by
  rw [carry, if_neg (Nat.not_le.mpr h)]

/-- The search and the truncation find the fields of the code. -/
theorem computeFields_id (x : Rat) :
    computeFields id x = ((ofSeconds x).mantissa, (ofSeconds x).exponent) := by
  rw [ofSeconds, computeFields]
  rcases searchExponent_cases x with ⟨hsearch, hu⟩ | ⟨hsearch, hu⟩ | ⟨hsearch, hu, hu'⟩
  · rw [ofUnits, if_pos hu, hsearch]
    rfl
  · rw [ofUnits_of_ceiling_le hu, hsearch]
    rfl
  · have hx : shortest ≤ x := scale_le_unitsOfSeconds_iff.mp hu
    -- the fraction is less than one, so that nothing is ever carried to the exponent
    have hmantissa := div_stepUnits hu hu'
    have hexponent := exponentOf_le (unitsOfSeconds x)
    obtain ⟨hm, he⟩ := fields_ofUnits hu hu'
    have hnonneg : 0 ≤ x := le_trans (by norm_num [shortest]) hx
    rw [hm, he, hsearch, Int.toNat_natCast, floor_sixteenths hnonneg, ← stepUnits_eq, carry_of_lt (by omega)]
    dsimp only
    rw [if_neg (by omega), if_neg (by omega), if_neg (by omega)]

theorem computeStep_id (x : Rat) : computeStep id x = step x := by
  have hexponent : (min (max (searchExponent id x) 0) 15).toNat = exponentOf (unitsOfSeconds x) := by
    rw [searchExponent_id, exponentOf]
    omega
  rw [computeStep, hexponent, step, secondsOfUnits, stepUnits_eq, shortest]
  simp only [id]
  push_cast
  ring

theorem computeSeconds_id (c : TimeCode) : computeSeconds id c = c.seconds := by
  rw [computeSeconds, seconds, secondsOfUnits, units_eq, shortest]
  simp only [id]
  push_cast
  ring

/-! ### Exact results -/

open Binary64

theorem shortest_mul_two_pow (b : Nat) : shortest * 2 ^ b = 2 ^ ((b : Int) - 4) := by
  rw [zpow_sub₀ two_ne_zero, zpow_natCast, shortest]
  norm_num
  ring

theorem isRepresentable_two_zpow (k : Int) : IsRepresentable (2 ^ k) := by
  have h := (IsRepresentable.natCast (n := 1) (by decide)).mul_zpow k
  rwa [Nat.cast_one, one_mul] at h

theorem isRepresentable_shortest_mul (b : Nat) : IsRepresentable (shortest * 2 ^ b) :=
  shortest_mul_two_pow b ▸ isRepresentable_two_zpow _

theorem searchExponent_nearest {x : Rat} (hx : IsRepresentable x) :
    searchExponent nearest x = searchExponent id x := by
  have hratio : IsRepresentable (x / shortest) := by
    have h := shortest_mul_two_pow 0
    rw [pow_zero, mul_one] at h
    rw [h]
    exact hx.div_zpow _
  rw [searchExponent, hratio.nearest_eq]
  rfl

theorem sixteenths_nearest {x : Rat} (hx : IsRepresentable x) {b : Nat} (hle : shortest * 2 ^ b ≤ x)
    (hlt : x < shortest * 2 ^ (b + 1)) : sixteenths nearest x b = sixteenths id x b := by
  have hpos : 0 < shortest * 2 ^ b := by norm_num [shortest]
  have hbase := isRepresentable_shortest_mul b
  have hquotient : IsRepresentable (x / (shortest * 2 ^ b)) := shortest_mul_two_pow b ▸ hx.div_zpow _
  have hfraction : IsRepresentable (x / (shortest * 2 ^ b) - 1) := by
    refine hquotient.sub_one ((one_le_div hpos).mpr hle) ((div_lt_iff₀ hpos).mpr ?_)
    rwa [pow_succ, ← mul_assoc, mul_comm _ 2] at hlt
  have hscaled : IsRepresentable (16 * (x / (shortest * 2 ^ b) - 1)) := by
    have h := hfraction.mul_zpow 4
    rw [mul_comm] at h
    exact_mod_cast h
  rw [sixteenths, hbase.nearest_eq, hquotient.nearest_eq, hfraction.nearest_eq, hscaled.nearest_eq]
  rfl

theorem computeFields_nearest {x : Rat} (hx : IsRepresentable x) :
    computeFields nearest x = computeFields id x := by
  rw [computeFields, computeFields, searchExponent_nearest hx]
  rcases searchExponent_cases x with ⟨hsearch, -⟩ | ⟨hsearch, -⟩ | ⟨hsearch, hu, hu'⟩
  · rw [hsearch]
    rfl
  · rw [hsearch]
    rfl
  · obtain ⟨hlow, hhigh⟩ := (exponentOf_eq_iff hu hu').mp rfl
    rw [hsearch, Int.toNat_natCast, sixteenths_nearest hx]
    · rwa [shortest_mul_two_pow_le_iff, ← scale_mul_two_pow_le_iff]
    · rwa [← not_le, shortest_mul_two_pow_le_iff, ← scale_mul_two_pow_le_iff, Nat.not_le]

theorem computeStep_nearest {x : Rat} (hx : IsRepresentable x) : computeStep nearest x = computeStep id x := by
  rw [computeStep, computeStep, searchExponent_nearest hx]
  generalize (min (max (searchExponent id x) 0) 15).toNat = b
  have hbase := isRepresentable_shortest_mul b
  have hstep : IsRepresentable (shortest * 2 ^ b / 16) := by exact_mod_cast hbase.div_zpow 4
  rw [hbase.nearest_eq, hstep.nearest_eq]
  rfl

theorem computeSeconds_nearest (c : TimeCode) : computeSeconds nearest c = c.seconds := by
  have hmantissa := c.mantissa_lt
  have hfraction : IsRepresentable ((c.mantissa : Rat) / 16) := by
    exact_mod_cast (IsRepresentable.natCast (n := c.mantissa) (by omega)).div_zpow 4
  have hfactor : IsRepresentable (1 + (c.mantissa : Rat) / 16) := by
    have h := (IsRepresentable.natCast (n := 16 + c.mantissa) (by omega)).div_zpow 4
    have heq : ((16 + c.mantissa : Nat) : Rat) / 2 ^ (4 : Int) = 1 + (c.mantissa : Rat) / 16 := by
      push_cast
      ring
    rwa [heq] at h
  have hproduct : IsRepresentable (shortest * (1 + (c.mantissa : Rat) / 16)) := by
    have h := hfactor.mul_zpow (-4)
    have heq : (1 + (c.mantissa : Rat) / 16) * 2 ^ (-4 : Int) = shortest * (1 + (c.mantissa : Rat) / 16) := by
      rw [shortest]
      ring
    rwa [heq] at h
  have hresult : IsRepresentable (shortest * (1 + (c.mantissa : Rat) / 16) * 2 ^ c.exponent) := by
    exact_mod_cast hproduct.mul_zpow c.exponent
  rw [computeSeconds, hfraction.nearest_eq, hfactor.nearest_eq, hproduct.nearest_eq, hresult.nearest_eq]
  exact computeSeconds_id c

/-! ## Codes as they are computed -/

/-- The code of a duration does not overstate it and is less than a step below it, up to where all durations
have the greatest code. Longer durations have no lesser codes, and what a code stands for has that code. The
fields fit their four bits as they are computed, and in double precision nothing is lost to rounding. -/
theorem ofSeconds_isTight :
    (∀ x : Rat, shortest ≤ x → x < shortest * 2 ^ 16 →
      (ofSeconds x).seconds ≤ x ∧ x < (ofSeconds x).seconds + step x) ∧
    (∀ x : Rat, shortest * 2 ^ 16 ≤ x → ofSeconds x = ⟨0xff⟩) ∧
    (∀ x y : Rat, shortest ≤ x → x ≤ y → (ofSeconds x).seconds ≤ (ofSeconds y).seconds) ∧
    (∀ x : Rat, (computeFields id x).1 < 16 ∧ (computeFields id x).2 < 16 ∧
      (ofSeconds x).octet.toNat = 16 * (computeFields id x).1 + (computeFields id x).2 ∧
      computeStep id x = step x) ∧
    (∀ c : TimeCode, computeSeconds id c = c.seconds ∧ ofSeconds c.seconds = c) ∧
    (∀ (w : UInt64) (x : Rat), ofBits w = .finite x → 0 ≤ x →
      computeFields nearest x = computeFields id x ∧ computeStep nearest x = step x) ∧
    ∀ c : TimeCode, computeSeconds nearest c = c.seconds := by
  refine ⟨fun x hx hx' => ⟨seconds_ofSeconds_le hx, lt_seconds_ofSeconds_add hx hx'⟩,
    fun x hx => ofUnits_of_ceiling_le (ceiling_le_unitsOfSeconds_iff.mpr hx),
    fun x y => seconds_ofSeconds_mono, fun x => ?_,
    fun c => ⟨computeSeconds_id c, ofSeconds_seconds c⟩, fun w x hw hx => ?_, computeSeconds_nearest⟩
  · rw [computeFields_id]
    exact ⟨mantissa_lt _, exponent_lt _, octet_toNat _, computeStep_id x⟩
  · -- a quotient beyond the range of the format is greater than every power it is compared to either way
    have hexact := isRepresentable_of_ofBits hw hx
    exact ⟨computeFields_nearest hexact, (computeStep_nearest hexact).trans (computeStep_id x)⟩

/-- Three seconds and a third have the code of three seconds and a quarter. -/
theorem ofSeconds_isTight_third :
    (ofSeconds (10 / 3)).seconds ≤ 10 / 3 ∧ 10 / 3 < (ofSeconds (10 / 3)).seconds + step (10 / 3) ∧
      (ofSeconds (10 / 3)).seconds ≤ (ofSeconds 4).seconds ∧ ofSeconds 4096 = ⟨0xff⟩ ∧
      computeFields nearest 4 = computeFields id 4 ∧ (ofSeconds (10 / 3)).seconds = 13 / 4 := by
  obtain ⟨htight, hceiling, hmono, -, -, hexact, -⟩ := ofSeconds_isTight
  have hthird := htight (10 / 3) (by norm_num [shortest]) (by norm_num [shortest])
  have hbits : ofBits 0x4010000000000000 = .finite 4 := by rfl
  exact ⟨hthird.1, hthird.2, hmono (10 / 3) 4 (by norm_num [shortest]) (by norm_num),
    hceiling 4096 (by norm_num [shortest]), (hexact _ 4 hbits (by norm_num)).1, by decide +kernel⟩

end Manet.TimeCode
