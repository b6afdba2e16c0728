import Mathlib.Data.Rat.Floor
import Mathlib.Tactic.Linarith
import Manet.Binary64

/-!
# Exact results in double precision

A number of at most 53 significant bits is representable, and rounding leaves it as it is
(`Binary64.IsRepresentable.nearest_eq`). Scaling by a power of two is exact, and so is what is left of a
number between one and two when one is taken away. The numbers that are not negative and have bits are
representable (`Binary64.isRepresentable_of_ofBits`).
-/

namespace Manet.Binary64

variable {x : Rat}

/-- A number of at most 53 significant bits. -/
def IsRepresentable (x : Rat) : Prop := ∃ (n : Nat) (e : Int), n < 2 ^ 53 ∧ x = n * 2 ^ e

namespace IsRepresentable

theorem natCast {n : Nat} (h : n < 2 ^ 53) : IsRepresentable n :=
  ⟨n, 0, h, by rw [zpow_zero, mul_one]⟩

theorem mul_zpow (h : IsRepresentable x) (k : Int) : IsRepresentable (x * 2 ^ k) := by
  obtain ⟨n, e, hn, rfl⟩ := h
  exact ⟨n, e + k, hn, by rw [zpow_add₀ two_ne_zero, mul_assoc]⟩

theorem div_zpow (h : IsRepresentable x) (k : Int) : IsRepresentable (x / 2 ^ k) := by
  rw [div_eq_mul_inv, ← zpow_neg]
  exact h.mul_zpow (-k)

theorem mkRat {n : Nat} (h : n < 2 ^ 53) (k : Nat) : IsRepresentable (mkRat n (1 <<< k)) := by
  rw [Rat.mkRat_eq_div, Nat.one_shiftLeft, Nat.cast_pow, Nat.cast_two, ← zpow_natCast]
  exact (natCast h).div_zpow k

/-- The fraction of a number between one and two has no more bits than the number. -/
theorem sub_one (h : IsRepresentable x) (hx : 1 ≤ x) (hx' : x < 2) : IsRepresentable (x - 1) := by
  obtain ⟨n, e, hn, rfl⟩ := h
  obtain ⟨k, rfl | rfl⟩ := Int.eq_nat_or_neg e
  · -- an integer between one and two is one
    have hone : n * 2 ^ k = 1 := by
      rw [zpow_natCast] at hx hx'
      have hle : 1 ≤ n * 2 ^ k := by exact_mod_cast hx
      have hlt : n * 2 ^ k < 2 := by exact_mod_cast hx'
      exact Nat.le_antisymm (Nat.le_of_lt_succ hlt) hle
    refine ⟨0, 0, by decide, ?_⟩
    rw [zpow_natCast, sub_eq_zero.mpr (by exact_mod_cast hone), Nat.cast_zero, zero_mul]
  · rw [zpow_neg, zpow_natCast, ← div_eq_mul_inv] at hx ⊢
    have hpos : (0 : Rat) < 2 ^ k := pow_pos two_pos k
    have hle : 2 ^ k ≤ n := by exact_mod_cast (one_le_div hpos).mp hx
    refine ⟨n - 2 ^ k, -k, Nat.lt_of_le_of_lt (Nat.sub_le ..) hn, ?_⟩
    rw [zpow_neg, zpow_natCast, ← div_eq_mul_inv, Nat.cast_sub hle, sub_div, Nat.cast_pow, Nat.cast_two,
      div_self hpos.ne']

end IsRepresentable

/-! ## Rounding -/

theorem roundToInteger_natCast (n : Nat) : roundToInteger n = n := by
  rw [roundToInteger, Rat.num_natCast, Rat.den_natCast, roundDiv]
  simp [Nat.mod_one]

/-- The leading power of two is at most the number. -/
theorem zpow_binaryExponent_le (hx : 0 < x) : (2 : Rat) ^ binaryExponent x ≤ x := by
  rw [binaryExponent]
  split
  · assumption
  · have hnum : x.num.toNat ≠ 0 := by have := Rat.num_pos.mpr hx; omega
    have hlow : (2 : Rat) ^ (x.num.toNat.log2 : Int) ≤ x.num.toNat := by
      rw [zpow_natCast]
      exact_mod_cast Nat.log2_self_le hnum
    have hhigh : (x.den : Rat) ≤ 2 ^ ((x.den.log2 : Int) + 1) := by
      exact_mod_cast (Nat.lt_log2_self (n := x.den)).le
    calc (2 : Rat) ^ ((x.num.toNat.log2 : Int) - x.den.log2 - 1)
        = 2 ^ (x.num.toNat.log2 : Int) / 2 ^ ((x.den.log2 : Int) + 1) := by
          rw [← zpow_sub₀ two_ne_zero, sub_sub]
      _ ≤ x.num.toNat / x.den := by
          exact div_le_div₀ (Nat.cast_nonneg _) hlow (Nat.cast_pos.mpr x.den_pos) hhigh
      _ = x := by
          rw [← Int.cast_natCast, Int.toNat_of_nonneg (Rat.num_nonneg.mpr hx.le), Rat.num_div_den]

theorem IsRepresentable.nearest_eq (h : IsRepresentable x) : nearest x = x := by
  obtain ⟨n, e, hn, rfl⟩ := h
  rcases Nat.eq_zero_or_pos n with rfl | hpos
  · have hzero : roundToInteger 0 = 0 := roundToInteger_natCast 0
    rw [nearest, Nat.cast_zero, zero_mul, Rat.zero_mul, hzero, Nat.cast_zero, Rat.zero_mul]
  have hx : (0 : Rat) < n * 2 ^ e := mul_pos (Nat.cast_pos.mpr hpos) (zpow_pos two_pos e)
  generalize hE : binaryExponent (n * 2 ^ e) = E
  -- in units of the last of 53 bits the number is whole
  have hexponent : E < 53 + e := by
    refine (zpow_lt_zpow_iff_right₀ (one_lt_two (α := Rat))).mp ?_
    calc (2 : Rat) ^ E ≤ n * 2 ^ e := hE ▸ zpow_binaryExponent_le hx
      _ < 2 ^ (53 : Int) * 2 ^ e := mul_lt_mul_of_pos_right (by exact_mod_cast hn) (zpow_pos two_pos e)
      _ = 2 ^ (53 + e) := (zpow_add₀ two_ne_zero ..).symm
  obtain ⟨k, hk⟩ := Int.eq_ofNat_of_zero_le (show 0 ≤ e + (52 - E) by omega)
  have hwhole : (n : Rat) * 2 ^ e * 2 ^ (52 - E) = (n * 2 ^ k : Nat) := by
    rw [mul_assoc, ← zpow_add₀ two_ne_zero, hk, Nat.cast_mul, Nat.cast_pow, Nat.cast_two, zpow_natCast]
  have hrounded : nearest (n * 2 ^ e) = roundToInteger (n * 2 ^ e * 2 ^ (52 - E)) * 2 ^ (E - 52) := by
    rw [← hE]
    rfl
  rw [hrounded, hwhole, roundToInteger_natCast, ← hwhole, mul_assoc, ← zpow_add₀ two_ne_zero]
  rw [show 52 - E + (E - 52) = 0 by omega, zpow_zero, mul_one]

/-! ## Numbers with bits -/

theorem isRepresentable_of_ofBits {w : UInt64} (h : ofBits w = .finite x) (hx : 0 ≤ x) :
    IsRepresentable x := by
  have hfraction : w.toNat % 1 <<< 52 < 2 ^ 52 := Nat.mod_lt _ (by decide)
  have hsignificand : 1 <<< 52 + w.toNat % 1 <<< 52 < 2 ^ 53 := by omega
  rw [ofBits] at h
  extract_lets magnitude at h
  have hmagnitude : IsRepresentable magnitude := by
    unfold magnitude
    split
    · exact .mkRat (by omega) 1074
    · split
      · rw [Nat.shiftLeft_eq, Nat.cast_mul, Nat.cast_pow, Nat.cast_two, ← zpow_natCast]
        exact (IsRepresentable.natCast hsignificand).mul_zpow _
      · exact .mkRat hsignificand _
  have hnonneg : 0 ≤ magnitude := by
    obtain ⟨n, e, -, hn⟩ := hmagnitude
    rw [hn]
    exact mul_nonneg (Nat.cast_nonneg n) (zpow_nonneg zero_le_two e)
  split at h
  · split at h <;> cases h
  · obtain rfl := Binary64.finite.inj h
    by_cases hsign : w.toNat >>> 63 = 1
    · rw [if_pos (decide_eq_true hsign)] at hx ⊢
      rw [le_antisymm (neg_nonneg.mp hx) hnonneg, neg_zero]
      exact .natCast (n := 0) (by decide)
    · rwa [if_neg (by simpa using hsign)]

end Manet.Binary64
