import Mathlib.Algebra.Order.Field.Power
import Mathlib.Tactic.NormNum
import Mathlib.Tactic.Linarith
import Keypad.Number.Binary64
import Keypad.Proofs.Number.Nearest

/-!
Contract: binary64 values are correctly rounded from exact quotients and from decimal numbers.

Owns:
- the value nearest to a number given by its sign and its size, overflow included, and its
  uniqueness;
- that quotients, natural numbers and decimals are rounded to it;
- which quotients have a finite value, and the order of rounded values.

Does not own: texts, the arithmetic's special cases.
-/

namespace Keypad

namespace Magnitude

theorem unitsPerOne_pos : 0 < unitsPerOne := by decide +kernel

theorem overflowUnits_le : overflowUnits ≤ 10 ^ 400 * unitsPerOne := by decide +kernel

theorem twice_unitsPerOne_lt : 2 * unitsPerOne < 10 ^ 400 := by decide +kernel

theorem nearestTo_zero {exact : ℚ} (nonnegative : 0 ≤ exact) (small : exact < 1 / 2) :
    zero.NearestTo exact := by
  have zeroUnits : zero.units = 0 := rfl
  have apart : ∀ other : Magnitude, other ≠ zero →
      |exact - zero.units| < |exact - other.units| := by
    intro other different
    have nonzero : other.units ≠ 0 := fun isZero => different (units_injective isZero)
    have atLeastOne : (1 : ℚ) ≤ other.units := by exact_mod_cast Nat.one_le_iff_ne_zero.mpr nonzero
    rw [zeroUnits, Nat.cast_zero, sub_zero, abs_of_nonneg nonnegative, abs_of_neg (by linarith)]
    linarith
  constructor
  · intro other
    by_cases same : other = zero
    · rw [same]
    · exact (apart other same).le
  · intro other tie different
    exact absurd tie (apart other different).ne

end Magnitude

/-- A power of ten as a quotient of powers with natural exponents. -/
theorem ten_zpow (exponent : Int) :
    (10 : ℚ) ^ exponent = 10 ^ exponent.toNat / 10 ^ (-exponent).toNat := by
  have parts : exponent = (exponent.toNat : ℤ) - ((-exponent).toNat : ℤ) := by omega
  rw [← zpow_natCast, ← zpow_natCast, ← zpow_sub₀ (by norm_num), ← parts]

theorem ten_zpow_of_nonneg {exponent : Int} (upward : 0 ≤ exponent) :
    (10 : ℚ) ^ exponent = 10 ^ exponent.natAbs := by
  rw [← zpow_natCast, Int.natAbs_of_nonneg upward]

theorem ten_zpow_of_nonpos {exponent : Int} (downward : exponent ≤ 0) :
    (10 : ℚ) ^ exponent = (10 ^ exponent.natAbs)⁻¹ := by
  rw [← zpow_natCast, ← zpow_neg, Int.ofNat_natAbs_of_nonpos downward, neg_neg]

/-- A power of ten so small that it is next to nothing even in units. -/
theorem ten_zpow_mul_unitsPerOne_lt :
    (10 : ℚ) ^ (-400 : ℤ) * Magnitude.unitsPerOne < 1 / 2 := by
  have unitsBound : (2 : ℚ) * Magnitude.unitsPerOne < 10 ^ (400 : ℤ) := by
    exact_mod_cast Magnitude.twice_unitsPerOne_lt
  have reciprocal : (10 : ℚ) ^ (-400 : ℤ) * 10 ^ (400 : ℤ) = 1 :=
    zpow_neg_mul_zpow_self 400 (by decide)
  have powerPositive : (0 : ℚ) < 10 ^ (-400 : ℤ) := zpow_pos (by decide) _
  generalize (10 : ℚ) ^ (-400 : ℤ) = inverse at *
  generalize (10 : ℚ) ^ (400 : ℤ) = power at *
  generalize (Magnitude.unitsPerOne : ℚ) = units at *
  nlinarith

namespace Binary64

open Magnitude (overflowUnits unitsPerOne)

/-- The value is the binary64 value nearest to the number with this sign and size: of two equally
near ones that with the even significand, and infinite from the middle between the greatest finite
size and the next power of two on. -/
inductive IsNearest (negative : Bool) (size : ℚ) : Binary64 → Prop where
  | finite {magnitude : Magnitude} (inRange : size * unitsPerOne < overflowUnits)
      (near : magnitude.NearestTo (size * unitsPerOne)) :
      IsNearest negative size (.finite negative magnitude)
  | infinite (beyond : overflowUnits ≤ size * unitsPerOne) :
      IsNearest negative size (.infinite negative)

theorem IsNearest.unique {negative : Bool} {size : ℚ} {left right : Binary64}
    (leftNearest : IsNearest negative size left) (rightNearest : IsNearest negative size right) :
    left = right := by
  cases leftNearest with
  | finite leftRange leftNear =>
      cases rightNearest with
      | finite _ rightNear => rw [leftNear.unique rightNear]
      | infinite beyond => exact absurd beyond (not_le.mpr leftRange)
  | infinite beyond =>
      cases rightNearest with
      | finite rightRange _ => exact absurd beyond (not_le.mpr rightRange)
      | infinite _ => rfl

theorem isNearest_ofQuotient (negative : Bool) (numerator : Nat) {denominator : Nat}
    (positive : 0 < denominator) {size : ℚ}
    (sizeEq : size * unitsPerOne = (numerator : ℚ) / denominator) :
    IsNearest negative size (ofQuotient negative numerator denominator) := by
  have positiveRat : (0 : ℚ) < denominator := by exact_mod_cast positive
  have threshold : (overflowUnits : ℚ) ≤ size * unitsPerOne ↔
      overflowUnits * denominator ≤ numerator := by
    rw [sizeEq, le_div_iff₀ positiveRat]
    exact_mod_cast Iff.rfl
  unfold ofQuotient
  cases rounded : Magnitude.ofQuotient? numerator denominator with
  | none =>
      exact .infinite
        (threshold.mpr ((Magnitude.ofQuotient?_eq_none_iff _ positive).mp rounded))
  | some magnitude =>
      refine .finite ?_ (sizeEq ▸ Magnitude.nearestTo_of_ofQuotient? positive rounded)
      rw [← not_le, threshold, ← Magnitude.ofQuotient?_eq_none_iff _ positive, rounded]
      exact Option.some_ne_none magnitude

theorem isNearest_zero (negative : Bool) : IsNearest negative 0 (.finite negative .zero) := by
  refine .finite ?_ ?_
  · rw [zero_mul]
    exact_mod_cast Nat.lt_of_le_of_lt (Nat.zero_le _) (Magnitude.units_lt_overflowUnits .zero)
  · rw [zero_mul]
    exact Magnitude.nearestTo_zero (le_refl _) (by norm_num)

/-- A decimal is read as the value nearest to it; the exponents answered without a power are those
of sizes beyond the range and of sizes next to nothing. -/
theorem isNearest_ofDecimal (negative : Bool) (coefficient : Nat) (exponent : Int) :
    IsNearest negative ((coefficient : ℚ) * 10 ^ exponent)
      (ofDecimal negative coefficient exponent) := by
  have unitsPositive : (0 : ℚ) < unitsPerOne := by exact_mod_cast Magnitude.unitsPerOne_pos
  unfold ofDecimal
  split
  next isZero =>
    rw [isZero, Nat.cast_zero, zero_mul]
    exact isNearest_zero negative
  next nonzero =>
    have atLeastOne : (1 : ℚ) ≤ coefficient := by
      exact_mod_cast Nat.one_le_iff_ne_zero.mpr nonzero
    split
    next beyond =>
      apply IsNearest.infinite
      have powerBound : (10 : ℚ) ^ (400 : Nat) ≤ 10 ^ exponent := by
        rw [← zpow_natCast]
        exact zpow_le_zpow_right₀ (by norm_num) (by omega)
      calc (overflowUnits : ℚ) ≤ 10 ^ (400 : Nat) * unitsPerOne := by
            exact_mod_cast Magnitude.overflowUnits_le
        _ ≤ coefficient * 10 ^ exponent * unitsPerOne := by
            refine mul_le_mul_of_nonneg_right (powerBound.trans ?_) unitsPositive.le
            exact le_mul_of_one_le_left (by positivity) atLeastOne
    next within =>
      split
      next tiny =>
        have coefficientBound : (coefficient : ℚ) ≤ 10 ^ ((coefficient.log2 : ℤ) + 1) := by
          have digits : coefficient ≤ 10 ^ (coefficient.log2 + 1) :=
            Nat.le_trans Nat.lt_log2_self.le (Nat.pow_le_pow_left (by decide) _)
          exact_mod_cast digits
        have sizeBound : (coefficient : ℚ) * 10 ^ exponent ≤ 10 ^ (-400 : ℤ) :=
          calc (coefficient : ℚ) * 10 ^ exponent
              ≤ 10 ^ ((coefficient.log2 : ℤ) + 1) * 10 ^ exponent :=
                mul_le_mul_of_nonneg_right coefficientBound (by positivity)
            _ = 10 ^ ((coefficient.log2 : ℤ) + 1 + exponent) := (zpow_add₀ (by norm_num) _ _).symm
            _ ≤ 10 ^ (-400 : ℤ) := zpow_le_zpow_right₀ (by norm_num) (by omega)
        have small : (coefficient : ℚ) * 10 ^ exponent * unitsPerOne < 1 / 2 :=
          (mul_le_mul_of_nonneg_right sizeBound unitsPositive.le).trans_lt
            ten_zpow_mul_unitsPerOne_lt
        have nonnegative : 0 ≤ (coefficient : ℚ) * 10 ^ exponent * unitsPerOne :=
          mul_nonneg (by positivity) unitsPositive.le
        have overflowLarge : (1 : ℚ) ≤ overflowUnits := by
          exact_mod_cast Nat.lt_of_le_of_lt (Nat.zero_le _) (Magnitude.units_lt_overflowUnits .zero)
        exact .finite (by linarith) (Magnitude.nearestTo_zero nonnegative small)
      next ordinary =>
        have powerPositive : 0 < Nat.pow 10 (-exponent).toNat := Nat.pow_pos (by decide)
        apply isNearest_ofQuotient negative _ powerPositive
        rw [ten_zpow, Nat.pow_eq, Nat.pow_eq]
        push_cast
        ring

/-- So are digits of which some stand behind a point. -/
theorem isNearest_places (negative : Bool) (digits places : Nat) :
    IsNearest negative ((digits : ℚ) / 10 ^ places) (ofDecimal negative digits (-(places : ℤ))) := by
  have nearest := isNearest_ofDecimal negative digits (-(places : ℤ))
  rwa [zpow_neg, zpow_natCast, ← div_eq_mul_inv] at nearest

theorem isNearest_ofNat (value : Nat) : IsNearest false value (ofNat value) := by
  apply isNearest_ofQuotient false _ Nat.one_pos
  rw [Nat.cast_mul, Nat.cast_one, div_one]

theorem isFinite_ofQuotient_iff (negative : Bool) (numerator : Nat) {denominator : Nat}
    (positive : 0 < denominator) :
    (∃ magnitude, ofQuotient negative numerator denominator = .finite negative magnitude) ↔
      numerator < overflowUnits * denominator := by
  rw [← Nat.not_le, ← Magnitude.ofQuotient?_eq_none_iff numerator positive]
  unfold ofQuotient
  cases Magnitude.ofQuotient? numerator denominator <;> simp

theorem ofQuotient_mono {negative : Bool} {numerator₁ denominator₁ numerator₂ denominator₂ : Nat}
    {low high : Magnitude} (positive₁ : 0 < denominator₁) (positive₂ : 0 < denominator₂)
    (ordered : numerator₁ * denominator₂ ≤ numerator₂ * denominator₁)
    (lowRounded : ofQuotient negative numerator₁ denominator₁ = .finite negative low)
    (highRounded : ofQuotient negative numerator₂ denominator₂ = .finite negative high) :
    low.units ≤ high.units := by
  have finite : ∀ {numerator denominator : Nat} {magnitude : Magnitude},
      ofQuotient negative numerator denominator = .finite negative magnitude →
        Magnitude.ofQuotient? numerator denominator = some magnitude := by
    intro numerator denominator magnitude rounded
    unfold ofQuotient at rounded
    split at rounded
    next found =>
      cases rounded
      exact found
    · simp at rounded
  have positiveRat₁ : (0 : ℚ) < denominator₁ := by exact_mod_cast positive₁
  have positiveRat₂ : (0 : ℚ) < denominator₂ := by exact_mod_cast positive₂
  have orderedRat : (numerator₁ : ℚ) / denominator₁ ≤ numerator₂ / denominator₂ := by
    rw [div_le_div_iff₀ positiveRat₁ positiveRat₂]
    exact_mod_cast ordered
  exact Magnitude.NearestTo.units_le orderedRat
    (Magnitude.nearestTo_of_ofQuotient? positive₁ (finite lowRounded))
    (Magnitude.nearestTo_of_ofQuotient? positive₂ (finite highRounded))

end Binary64

end Keypad
