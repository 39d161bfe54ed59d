import Keypad.Proofs.Json.NumberText
import Keypad.Proofs.Number.RelativeError

/-!
Contract: the fewest digits of a normal size, read and rescaled, give a size close to it.

Owns:
- one multiplication or division by a rounded power of ten as two roundings, and scaling as at most
  two of them;
- that rescaled digits are at most six roundings away from the size that they were written for.

Does not own: sizes below the normal ones, which sizes are kept exactly.
-/

namespace Keypad.Json

open Binary64 (ofNat)
open Magnitude (unitsPerOne)

/-- Rescaling digits is scaling a whole number that denotes the same size with its power of ten. -/
theorem rescaled?_eq_scale (decimal : Decimal) :
    ∃ (value : Nat) (power : Int), rescaled? decimal = scale (ofNat value) power ∧
      (value : ℚ) * 10 ^ power = decimal.coefficient * 10 ^ decimal.exponent ∧
      (value = decimal.coefficient ∧ power = decimal.exponent ∨ value ≤ 10 ^ 17 ∧ power = -1) := by
  unfold rescaled?
  split
  next whole =>
    refine ⟨_, _, rfl, ?_, .inr ⟨written_le decimal whole.1 whole.2, rfl⟩⟩
    have exponentEq : decimal.exponent.natAbs = decimal.exponent.toNat := by omega
    rw [ten_zpow_of_nonneg whole.1, exponentEq, zpow_neg_one]
    push_cast
    rw [pow_succ]
    ring
  next => exact ⟨_, _, rfl, rfl, .inl ⟨rfl, rfl⟩⟩

variable {negative : Bool} {size scaled : Magnitude} {target : ℚ} {count : Nat}

theorem powerOfTen_within {power : Nat} (bound : power ≤ 308) :
    ∃ factor, powerOfTen power = .finite false factor ∧ 0 < factor.units ∧
      Within 1 factor.size (10 ^ power) := by
  obtain ⟨factor, factorEq, large⟩ := powerOfTen_finite bound
  have within := Binary64.within_ofNat (Nat.pow_pos (show 0 < 10 by decide)) factorEq
  push_cast at within
  exact ⟨factor, factorEq, Nat.lt_of_lt_of_le Magnitude.unitsPerOne_pos large, within⟩

/-- Scaling by a power of ten that is formed at once multiplies or divides by it, and rounds. -/
theorem scale_eq_some_iff {power : Int} {factor : Magnitude} (bound : power.natAbs ≤ 308)
    (factorEq : powerOfTen power.natAbs = .finite false factor) (positive : 0 < factor.units) :
    scale (.finite negative size) power = some (.finite negative scaled) ↔
      Binary64.IsNearest negative
        (if power < 0 then size.size / factor.size else size.size * factor.size)
        (.finite negative scaled) := by
  unfold scale
  rw [if_pos bound, factorEq]
  rcases Int.lt_or_le power 0 with downward | upward
  · have quotient := Binary64.isNearest_div negative size positive
    rw [if_neg (by omega), if_pos downward, Option.some.injEq]
    exact ⟨fun same => same ▸ quotient, quotient.unique⟩
  · have product := Binary64.isNearest_mul negative size factor
    rw [if_pos upward, if_neg (show ¬power < 0 by omega)]
    constructor
    · intro read
      dsimp only at read
      split at read
      · cases read
      · rw [Option.some.injEq] at read
        exact read ▸ product
    · intro nearest
      rw [product.unique nearest]
      rfl

/-- Scaling by a power of ten that is formed at once is two roundings. -/
theorem scale_within_of_natAbs_le {power : Int} (bound : power.natAbs ≤ 308) (few : count ≤ 4)
    (within : Within count (size.size * 10 ^ power) target) (normal : leastNormal ≤ target)
    (read : scale (.finite negative size) power = some (.finite negative scaled)) :
    Within (count + 2) scaled.size target := by
  obtain ⟨factor, factorEq, factorPositive, factorWithin⟩ := powerOfTen_within bound
  have sizePositive : 0 < size.size :=
    pos_of_mul_pos_left within.leftPositive (by positivity)
  have nearest := (scale_eq_some_iff bound factorEq factorPositive).mp read
  have exact : Within (1 + count)
      (if power < 0 then size.size / factor.size else size.size * factor.size) target := by
    rw [← Nat.zero_add 1]
    split
    next downward =>
      rw [ten_zpow_of_nonpos downward.le, ← div_eq_mul_inv] at within
      exact ((Within.refl sizePositive).div factorWithin).trans within
    next notDownward =>
      rw [ten_zpow_of_nonneg (not_lt.mp notDownward)] at within
      exact ((Within.refl sizePositive).mul factorWithin).trans within
  have parts : 1 + count + 1 = count + 2 := by omega
  exact parts ▸ nearest.within exact (by omega) normal

/-- Scaling by a power of ten that is too small to be formed divides by `10 ^ 308` first. -/
theorem exists_scale_first {power : Int} (beyond : power < -308) (positive : 0 < size.size) :
    ∃ quotient, scale (.finite negative size) (-308) = some (.finite negative quotient) ∧
      scale (.finite negative size) power = scale (.finite negative quotient) (power + 308) := by
  obtain ⟨quotient, quotientEq⟩ := div_powerOfTen (Nat.le_refl 308) negative size
  have nonzero : (Binary64.finite negative size).isZero = false := by
    rw [Bool.eq_false_iff]
    exact size.isZero_iff.not.mpr (size.size_pos_iff.mp positive)
  refine ⟨quotient, ?_, ?_⟩
  · unfold scale
    rw [if_pos (by decide), if_neg (by decide), ← quotientEq]
    rfl
  · rw [← quotientEq]
    conv_lhs => unfold scale
    rw [if_neg (by omega), nonzero, if_neg Bool.false_ne_true, if_neg (by omega)]

/-- Scaling is at most four roundings. -/
theorem scale_within {power : Int} (range : -616 ≤ power ∧ power ≤ 308)
    (within : Within 2 (size.size * 10 ^ power) target) (normal : leastNormal ≤ target)
    (read : scale (.finite negative size) power = some (.finite negative scaled)) :
    Within 6 scaled.size target := by
  rcases Int.lt_or_le power (-308) with beyond | bound
  · have sizePositive : 0 < size.size :=
      pos_of_mul_pos_left within.leftPositive (by positivity)
    obtain ⟨quotient, first, rest⟩ := exists_scale_first beyond sizePositive
    -- What is left to divide by after the first division; until then the size is greater by it.
    have restLarge : (1 : ℚ) ≤ 10 ^ (-(power + 308)) := one_le_zpow₀ (by norm_num) (by omega)
    have firstNormal : leastNormal ≤ target * 10 ^ (-(power + 308)) :=
      normal.trans (le_mul_of_one_le_right (leastNormal_pos.le.trans normal) restLarge)
    have firstWithin := within.mul_ten_zpow (-(power + 308))
    have firstPower : power + -(power + 308) = -308 := by ring
    rw [firstPower] at firstWithin
    have halfway := scale_within_of_natAbs_le (by decide) (by decide) firstWithin firstNormal first
    have secondWithin := halfway.symm.mul_ten_zpow (power + 308)
    rw [neg_add_cancel, zpow_zero, mul_one] at secondWithin
    exact scale_within_of_natAbs_le (by omega) (by decide) secondWithin.symm normal (rest ▸ read)
  · exact (scale_within_of_natAbs_le (by omega) (by decide) within normal read).mono (by decide)

variable {magnitude : Magnitude}

/-- The fewest digits of a normal size are at most one rounding away from it. -/
theorem within_shortest (normal : leastNormal ≤ magnitude.size) :
    Within 1 ((magnitude.shortest .toEven).coefficient *
      10 ^ (magnitude.shortest .toEven).exponent) magnitude.size := by
  have nonzero := magnitude.size_pos_iff.mp (leastNormal_pos.trans_le normal)
  have nearest := Binary64.isNearest_shortest false .toEven nonzero
  exact (nearest.within_one (nearest.large normal)).symm

/-- Two divisions reach the power of ten of a normal size. -/
theorem shortest_exponent_range (normal : leastNormal ≤ magnitude.size) :
    -616 ≤ (magnitude.shortest .toEven).exponent ∧ (magnitude.shortest .toEven).exponent ≤ 308 := by
  have nonzero := magnitude.size_pos_iff.mp (leastNormal_pos.trans_le normal)
  obtain ⟨_, digitsBound, _, highest, _⟩ := Magnitude.shortest_bounds .toEven nonzero
  obtain ⟨significandBound, _, _⟩ := magnitude.canonical
  refine ⟨?_, highest⟩
  by_contra low
  rw [not_le] at low
  have large := (Binary64.isNearest_shortest false .toEven nonzero).large normal
  have digits : ((magnitude.shortest .toEven).coefficient : ℚ) ≤ 10 ^ (18 : ℤ) := by
    exact_mod_cast (show (magnitude.shortest .toEven).coefficient ≤ 10 ^ 18 by omega)
  have small : (magnitude.shortest .toEven).coefficient *
      (10 : ℚ) ^ (magnitude.shortest .toEven).exponent ≤ 10 ^ (-400 : ℤ) := by
    calc (magnitude.shortest .toEven).coefficient *
          (10 : ℚ) ^ (magnitude.shortest .toEven).exponent
        ≤ 10 ^ (18 : ℤ) * 10 ^ (magnitude.shortest .toEven).exponent :=
          mul_le_mul_of_nonneg_right digits (by positivity)
      _ = 10 ^ (18 + (magnitude.shortest .toEven).exponent) := (zpow_add₀ (by norm_num) _ _).symm
      _ ≤ 10 ^ (-400 : ℤ) := zpow_le_zpow_right₀ (by norm_num) (by omega)
  have scaled := mul_le_mul_of_nonneg_right (large.trans small) DecimalGrid.unitsPerOne_pos_rat.le
  rw [mul_assoc, leastNormal_mul_unitsPerOne] at scaled
  linarith [ten_zpow_mul_unitsPerOne_lt]

/-- The rescaled digits of a normal size are at most six roundings away from it. -/
theorem rescaled?_within (normal : leastNormal ≤ magnitude.size)
    (read : rescaled? (magnitude.shortest .toEven) = some (.finite false scaled)) :
    Within 6 scaled.size magnitude.size := by
  have digits := within_shortest normal
  have range := shortest_exponent_range normal
  have nonzero := magnitude.size_pos_iff.mp (leastNormal_pos.trans_le normal)
  obtain ⟨_, digitsBound, _, _, _⟩ := Magnitude.shortest_bounds .toEven nonzero
  obtain ⟨significandBound, _, _⟩ := magnitude.canonical
  obtain ⟨value, power, rescaledEq, same, parts⟩ :=
    rescaled?_eq_scale (magnitude.shortest .toEven)
  have bounds : value ≤ 10 ^ 18 ∧ -616 ≤ power ∧ power ≤ 308 := by
    rcases parts with ⟨rfl, rfl⟩ | ⟨small, rfl⟩
    · exact ⟨by omega, range⟩
    · exact ⟨small.trans (by decide), by decide⟩
  rw [← same] at digits
  have positive : 0 < value := by
    have valuePositive := pos_of_mul_pos_left digits.leftPositive (by positivity)
    exact_mod_cast valuePositive
  obtain ⟨start, startEq⟩ := Binary64.isFinite_ofNat (show 18 ≤ 308 by decide) bounds.1
  have powerPositive : (0 : ℚ) < 10 ^ power := by positivity
  have started := (Binary64.within_ofNat positive startEq).mul (Within.refl powerPositive)
  rw [rescaledEq, startEq] at read
  exact scale_within bounds.2 (started.trans digits) normal read

end Keypad.Json
