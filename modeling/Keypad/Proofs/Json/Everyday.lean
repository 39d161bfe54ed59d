import Keypad.Proofs.Json.Reads
import Keypad.Proofs.Json.Rescaling

/-!
Contract: values nearest to numbers of few digits, neither very small nor very great, are read back
unchanged.

Owns:
- which values are everyday values;
- that a whole number and a power of ten that are values themselves are scaled by one rounding;
- that the rescaled digits of an everyday value give its size again.

Does not own: records, histories.

A number of fifteen digits and the fewest digits of its value are both at most one rounding away
from it, and the fewest digits have no smaller power of ten. They make a whole number of less than
53 bits, and the power of ten that remains is a value: so they are scaled by one rounding, which
gives the value that they were made for.
-/

namespace Keypad

namespace Binary64

open Magnitude (unitsPerOne)

/-- Zero with either sign, and the values from `0.00001` and below `10 ^ 14` that are nearest to a
number of at most fifteen digits. -/
inductive IsEveryday : Binary64 → Prop where
  | zero (negative : Bool) : IsEveryday (.finite negative .zero)
  | decimal {negative : Bool} {magnitude : Magnitude} {coefficient : Nat} {exponent : Int}
      (digits : coefficient < 10 ^ 15) (least : 10 ^ (-5 : ℤ) ≤ magnitude.size)
      (below : magnitude.size < 10 ^ 14)
      (nearest : IsNearest negative (coefficient * 10 ^ exponent) (.finite negative magnitude)) :
      IsEveryday (.finite negative magnitude)

theorem IsEveryday.isFinite {value : Binary64} (everyday : value.IsEveryday) :
    value.isFinite = true := by
  cases everyday <;> rfl

/-- The value of few digits is an everyday value if its units are within the bounds. -/
theorem isEveryday_of_ofDecimal {negative : Bool} {coefficient : Nat} {exponent : Int}
    {magnitude : Magnitude} (digits : coefficient < 10 ^ 15)
    (valueEq : ofDecimal negative coefficient exponent = .finite negative magnitude)
    (least : unitsPerOne ≤ 10 ^ 5 * magnitude.units)
    (below : magnitude.units < 10 ^ 14 * unitsPerOne) :
    (ofDecimal negative coefficient exponent).IsEveryday := by
  have unitsPositive := DecimalGrid.unitsPerOne_pos_rat
  have leastRat : (unitsPerOne : ℚ) ≤ 10 ^ 5 * magnitude.units := by exact_mod_cast least
  have belowRat : (magnitude.units : ℚ) < 10 ^ 14 * unitsPerOne := by exact_mod_cast below
  have nearest := isNearest_ofDecimal negative coefficient exponent
  rw [valueEq] at nearest ⊢
  refine .decimal digits ?_ ?_ nearest
  · have power : (10 : ℚ) ^ (-5 : ℤ) = 1 / 10 ^ 5 := by norm_num
    rw [power, Magnitude.size, div_le_div_iff₀ (by norm_num) unitsPositive, one_mul, mul_comm]
    exact leastRat
  · rw [Magnitude.size, div_lt_iff₀ unitsPositive]
    exact belowRat

/-- Which value is nearest does not depend on the sign. -/
theorem IsNearest.unsigned {negative : Bool} {exact : ℚ} {magnitude : Magnitude}
    (nearest : IsNearest negative exact (.finite negative magnitude)) (other : Bool) :
    IsNearest other exact (.finite other magnitude) := by
  cases nearest with
  | finite inRange near => exact .finite inRange near

end Binary64

namespace Json

open Binary64 (IsNearest ofNat)

variable {magnitude : Magnitude}

/-- A whole number of less than 53 bits and a power of ten up to `10 ^ 22` are scaled by one
rounding. -/
theorem scale_exact {value : Nat} {power : Int} (small : value < 9007199254740992)
    (range : power.natAbs ≤ 22)
    (nearest : IsNearest false (value * 10 ^ power) (.finite false magnitude)) :
    scale (ofNat value) power = some (.finite false magnitude) := by
  obtain ⟨start, startEq, startSize⟩ := Binary64.ofNat_of_lt small
  obtain ⟨factor, factorEq, factorSize⟩ := Binary64.ofNat_ten_pow range
  have factorPositive : 0 < factor.units := by
    rw [← factor.size_pos_iff_units, factorSize]
    positivity
  rw [startEq, scale_eq_some_iff (range.trans (by decide)) factorEq factorPositive, startSize,
    factorSize]
  split
  next downward => rwa [ten_zpow_of_nonpos downward.le, ← div_eq_mul_inv] at nearest
  next notDownward => rwa [ten_zpow_of_nonneg (not_lt.mp notDownward)] at nearest

/-- Of two decimals close to each other, that with the greater power of ten has no coefficient much
greater than the other's. -/
theorem coefficient_le_of_within {coefficient other : Nat} {exponent finer : Int}
    (coarser : finer ≤ exponent)
    (within : Within 2 (coefficient * 10 ^ exponent) (other * 10 ^ finer)) :
    coefficient ≤ 2 * other := by
  have powerPositive : (0 : ℚ) < 10 ^ exponent := by positivity
  have ordered : (other : ℚ) * 10 ^ finer ≤ other * 10 ^ exponent :=
    mul_le_mul_of_nonneg_left (zpow_le_zpow_right₀ (by norm_num) coarser) (Nat.cast_nonneg _)
  have scaled : (coefficient : ℚ) * 10 ^ exponent ≤ 2 * other * 10 ^ exponent := by
    linarith [within.le_twice (Nat.le_refl 2)]
  have counted : (coefficient : ℚ) ≤ 2 * other := le_of_mul_le_mul_right scaled powerPositive
  exact_mod_cast counted

/-- The power of ten of few digits close to a size that is neither very small nor very great. -/
theorem natAbs_exponent_le {coefficient : Nat} {exponent : Int} {size : ℚ}
    (few : coefficient ≤ 10 ^ 16) (least : 10 ^ (-5 : ℤ) ≤ size) (below : size < 10 ^ 14)
    (within : Within 1 (coefficient * 10 ^ exponent) size) : exponent.natAbs ≤ 22 := by
  have powerPositive : (0 : ℚ) < 10 ^ exponent := by positivity
  have notBelow : -22 ≤ exponent := by
    by_contra low
    have power : (10 : ℚ) ^ exponent ≤ 10 ^ (-22 : ℤ) :=
      zpow_le_zpow_right₀ (by norm_num) (by omega)
    have fewRat : (coefficient : ℚ) ≤ 10 ^ 16 := by exact_mod_cast few
    have reached : (coefficient : ℚ) * 10 ^ exponent ≤ 10 ^ 16 * 10 ^ (-22 : ℤ) :=
      mul_le_mul fewRat power powerPositive.le (by norm_num)
    have close := within.symm.le_twice (by decide)
    norm_num at least reached
    linarith
  have notAbove : exponent ≤ 22 := by
    by_contra high
    have power : (10 : ℚ) ^ (22 : ℤ) ≤ 10 ^ exponent :=
      zpow_le_zpow_right₀ (by norm_num) (by omega)
    have atLeastOne : (1 : ℚ) ≤ coefficient := by
      have positive := pos_of_mul_pos_left within.leftPositive powerPositive.le
      exact_mod_cast positive
    have reached := power.trans (le_mul_of_one_le_left powerPositive.le atLeastOne)
    have close := within.le_twice (by decide)
    norm_num at below reached
    linarith
  omega

/-- The rescaled digits of an everyday size give it again. -/
theorem rescaled?_everyday {coefficient : Nat} {exponent : Int} (digits : coefficient < 10 ^ 15)
    (least : 10 ^ (-5 : ℤ) ≤ magnitude.size) (below : magnitude.size < 10 ^ 14)
    (nearest : IsNearest false (coefficient * 10 ^ exponent) (.finite false magnitude)) :
    rescaled? (magnitude.shortest .toEven) = some (.finite false magnitude) := by
  have normal : leastNormal ≤ magnitude.size := by
    refine le_trans ?_ least
    calc leastNormal ≤ 2 ^ (-17 : ℤ) := zpow_le_zpow_right₀ (by norm_num) (by norm_num)
      _ ≤ 10 ^ (-5 : ℤ) := by norm_num
  have nonzero := magnitude.size_pos_iff.mp (leastNormal_pos.trans_le normal)
  have coarser := nearest.exponent_le_shortest .toEven nonzero
  have given := nearest.within_one (nearest.large normal)
  have within := within_shortest normal
  obtain ⟨value, power, rescaledEq, same, parts⟩ :=
    rescaled?_eq_scale (magnitude.shortest .toEven)
  suffices small : value < 9007199254740992 ∧ power.natAbs ≤ 22 by
    rw [rescaledEq]
    exact scale_exact small.1 small.2 (same ▸ Binary64.isNearest_shortest false .toEven nonzero)
  rcases parts with ⟨valueEq, powerEq⟩ | ⟨_, powerEq⟩
  · have few := coefficient_le_of_within coarser (within.trans given)
    rw [valueEq, powerEq]
    exact ⟨by omega, natAbs_exponent_le (by omega) least below within⟩
  · refine ⟨?_, by rw [powerEq]; decide⟩
    have close := within.le_twice (by decide)
    rw [← same, powerEq, zpow_neg_one] at close
    have bound : (value : ℚ) < 9007199254740992 := by linarith
    exact_mod_cast bound

/-- Both zeros are read back unchanged. -/
theorem rescaled?_zero :
    rescaled? (Magnitude.zero.shortest .toEven) = some (.finite false .zero) := by
  have digits : Magnitude.zero.shortest .toEven = ⟨0, 0⟩ := rfl
  have nearest := Binary64.isNearest_ofDecimal false 0 (-1)
  rw [digits]
  exact scale_exact (by decide) (by decide) nearest

theorem reread_of_isEveryday {value : Binary64} (everyday : value.IsEveryday) :
    reread value = value := by
  cases everyday with
  | zero negative => exact (reread_eq_iff negative .zero).mpr rescaled?_zero
  | decimal digits least below nearest =>
      exact (reread_eq_iff _ _).mpr
        (rescaled?_everyday digits least below (nearest.unsigned false))

end Json

end Keypad
