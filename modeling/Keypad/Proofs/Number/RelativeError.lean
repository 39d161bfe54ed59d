import Keypad.Proofs.Number.ReadsBack

/-!
Contract: rounding changes a number of normal size by a small part of it, and so do a few roundings
one after another.

Owns:
- numbers that are no more than a given number of roundings apart, with products and quotients;
- that the value nearest to a number of normal size is one rounding away from it;
- six roundings as a part of the number.

Does not own: sizes below the normal ones, texts.

The factor of one rounding leaves room: what a few roundings make of a normal size may lie a little
below the normal sizes, where the last place is a greater part of the size.
-/

namespace Keypad

open Magnitude (unitsPerOne)

/-- The factor by which one rounding may change a number. -/
def roundingFactor : ℚ := 1 + 5 / 2 ^ 55

/-- The least size of the values with a full significand. -/
def leastNormal : ℚ := 2 ^ (-1022 : ℤ)

theorem leastNormal_pos : 0 < leastNormal := zpow_pos (by norm_num) _

theorem leastNormal_le_one : leastNormal ≤ 1 := zpow_le_one_of_nonpos₀ (by norm_num) (by norm_num)

theorem leastNormal_mul_unitsPerOne : leastNormal * unitsPerOne = 2 ^ 52 := by
  have unitsEq : ∀ place : Nat, unitsPerOne = 2 ^ place → (unitsPerOne : ℚ) = 2 ^ (place : ℤ) := by
    intro place placeEq
    rw [placeEq, zpow_natCast]
    push_cast
    rfl
  have sum : (-1022 : ℤ) + (1074 : Nat) = (52 : Nat) := by decide
  rw [leastNormal, unitsEq 1074 DecimalGrid.unitsPerOne_eq, ← zpow_add₀ (by norm_num), sum,
    zpow_natCast]

theorem leastNormal_le_size_iff (magnitude : Magnitude) :
    leastNormal ≤ magnitude.size ↔ 4503599627370496 ≤ magnitude.units := by
  have significand : (2 : ℚ) ^ 52 = (4503599627370496 : Nat) := by norm_num
  rw [← mul_le_mul_iff_of_pos_right DecimalGrid.unitsPerOne_pos_rat, leastNormal_mul_unitsPerOne,
    magnitude.size_mul_unitsPerOne, significand, Nat.cast_le]

theorem one_le_roundingFactor : 1 ≤ roundingFactor := by
  unfold roundingFactor
  norm_num

theorem roundingFactor_pow_pos (roundings : Nat) : 0 < roundingFactor ^ roundings :=
  pow_pos (lt_of_lt_of_le one_pos one_le_roundingFactor) _

/-- Two positive numbers that so many roundings may take from one to the other. -/
structure Within (roundings : Nat) (left right : ℚ) : Prop where
  leftPositive : 0 < left
  rightPositive : 0 < right
  left_le : left ≤ right * roundingFactor ^ roundings
  right_le : right ≤ left * roundingFactor ^ roundings

namespace Within

variable {count more : Nat} {left middle right : ℚ}

theorem refl (positive : 0 < left) : Within 0 left left :=
  ⟨positive, positive, by rw [pow_zero, mul_one], by rw [pow_zero, mul_one]⟩

theorem symm (within : Within count left right) : Within count right left :=
  ⟨within.rightPositive, within.leftPositive, within.right_le, within.left_le⟩

theorem mono (within : Within count left right) (ordered : count ≤ more) :
    Within more left right := by
  have powers : roundingFactor ^ count ≤ roundingFactor ^ more :=
    pow_le_pow_right₀ one_le_roundingFactor ordered
  refine ⟨within.leftPositive, within.rightPositive, within.left_le.trans ?_,
    within.right_le.trans ?_⟩
  · exact mul_le_mul_of_nonneg_left powers within.rightPositive.le
  · exact mul_le_mul_of_nonneg_left powers within.leftPositive.le

theorem trans (first : Within count left middle) (second : Within more middle right) :
    Within (count + more) left right := by
  refine ⟨first.leftPositive, second.rightPositive, ?_, ?_⟩
  · calc left ≤ middle * roundingFactor ^ count := first.left_le
      _ ≤ right * roundingFactor ^ more * roundingFactor ^ count :=
          mul_le_mul_of_nonneg_right second.left_le (roundingFactor_pow_pos _).le
      _ = right * roundingFactor ^ (count + more) := by ring
  · calc right ≤ middle * roundingFactor ^ more := second.right_le
      _ ≤ left * roundingFactor ^ count * roundingFactor ^ more :=
          mul_le_mul_of_nonneg_right first.right_le (roundingFactor_pow_pos _).le
      _ = left * roundingFactor ^ (count + more) := by ring

theorem mul {otherLeft otherRight : ℚ} (first : Within count left right)
    (second : Within more otherLeft otherRight) :
    Within (count + more) (left * otherLeft) (right * otherRight) := by
  have leftPositive := first.leftPositive
  have rightPositive := first.rightPositive
  have factorPositive := roundingFactor_pow_pos count
  refine ⟨mul_pos leftPositive second.leftPositive, mul_pos rightPositive second.rightPositive,
    ?_, ?_⟩
  · calc left * otherLeft
        ≤ right * roundingFactor ^ count * (otherRight * roundingFactor ^ more) :=
          mul_le_mul first.left_le second.left_le second.leftPositive.le (by positivity)
      _ = right * otherRight * roundingFactor ^ (count + more) := by ring
  · calc right * otherRight
        ≤ left * roundingFactor ^ count * (otherLeft * roundingFactor ^ more) :=
          mul_le_mul first.right_le second.right_le second.rightPositive.le (by positivity)
      _ = left * otherLeft * roundingFactor ^ (count + more) := by ring

/-- Both numbers may be scaled by a power of ten. -/
theorem mul_ten_zpow {power : Int} (within : Within count (left * 10 ^ power) right) (shift : Int) :
    Within count (left * 10 ^ (power + shift)) (right * 10 ^ shift) := by
  have positive : (0 : ℚ) < 10 ^ shift := by positivity
  have scaled := within.mul (refl positive)
  rwa [mul_assoc, ← zpow_add₀ (by norm_num), Nat.add_zero] at scaled

theorem inv (within : Within count left right) : Within count left⁻¹ right⁻¹ := by
  have leftPositive := within.leftPositive
  have rightPositive := within.rightPositive
  refine ⟨inv_pos.mpr leftPositive, inv_pos.mpr rightPositive, ?_, ?_⟩
  · rw [inv_mul_eq_div, le_div_iff₀ rightPositive, inv_mul_le_iff₀ leftPositive]
    exact within.right_le
  · rw [inv_mul_eq_div, le_div_iff₀ leftPositive, inv_mul_le_iff₀ rightPositive]
    exact within.left_le

theorem div {otherLeft otherRight : ℚ} (first : Within count left right)
    (second : Within more otherLeft otherRight) :
    Within (count + more) (left / otherLeft) (right / otherRight) := by
  rw [div_eq_mul_inv, div_eq_mul_inv]
  exact first.mul second.inv

/-- Few roundings do not double a number. -/
theorem le_twice (within : Within count left right) (few : count ≤ 2) : left ≤ 2 * right := by
  have bound : roundingFactor ^ 2 ≤ 2 := by
    unfold roundingFactor
    norm_num
  have reached := (within.mono few).left_le
  have scaled := mul_le_mul_of_nonneg_left bound within.rightPositive.le
  linarith

/-- Few roundings of a normal size stay close to the normal sizes. -/
theorem leastNormal_le (within : Within count left right) (few : count ≤ 5)
    (normal : leastNormal ≤ right) : 15 / 16 * leastNormal ≤ left := by
  have bound : roundingFactor ^ 5 ≤ 16 / 15 := by
    unfold roundingFactor
    norm_num
  have reached := (within.mono few).right_le
  have scaled := mul_le_mul_of_nonneg_left bound within.leftPositive.le
  linarith

/-- Six roundings change a number by less than its part `2 ^ (-50)`. -/
theorem abs_sub_le (within : Within 6 left right) : |left - right| ≤ right / 2 ^ 50 := by
  have upper : roundingFactor ^ 6 ≤ 1 + 1 / 2 ^ 50 := by
    unfold roundingFactor
    norm_num
  have lower : (1 - 1 / 2 ^ 50) * roundingFactor ^ 6 ≤ 1 := by
    unfold roundingFactor
    norm_num
  have leftPositive := within.leftPositive
  have rightPositive := within.rightPositive
  have factorPositive := roundingFactor_pow_pos 6
  have above := within.left_le.trans (mul_le_mul_of_nonneg_left upper rightPositive.le)
  have below : (1 - 1 / 2 ^ 50) * right ≤ left := by
    calc (1 - 1 / 2 ^ 50) * right
        ≤ (1 - 1 / 2 ^ 50) * (left * roundingFactor ^ 6) :=
          mul_le_mul_of_nonneg_left within.right_le (by norm_num)
      _ = left * ((1 - 1 / 2 ^ 50) * roundingFactor ^ 6) := by ring
      _ ≤ left := mul_le_of_le_one_right leftPositive.le lower
  rw [abs_sub_le_iff]
  constructor <;> linarith

end Within

/-! ## One rounding -/

namespace Magnitude

variable {magnitude : Magnitude} {exact : ℚ}

/-- Rounding moves a size by at most half a unit of the last place. -/
theorem Reaches.distance (reaches : magnitude.Reaches exact) :
    |exact - magnitude.units| ≤ 2 ^ magnitude.exponent / 2 := by
  have quarters : (magnitude.quartersBelow : ℚ) * (2 ^ magnitude.exponent / 4) ≤
      2 * (2 ^ magnitude.exponent / 4) := by
    have few : (magnitude.quartersBelow : ℚ) ≤ 2 := by
      unfold quartersBelow
      split <;> norm_num
    exact mul_le_mul_of_nonneg_right few (by positivity)
  have low := reaches.low
  have high := reaches.high
  rw [abs_sub_le_iff]
  constructor <;> linarith

/-- The last place is the least one or a small part of the size. -/
theorem place_le (magnitude : Magnitude) :
    (2 : ℚ) ^ magnitude.exponent ≤ 1 ∨ 2 ^ 52 * (2 : ℚ) ^ magnitude.exponent ≤ magnitude.units := by
  obtain ⟨_, _, flat | leading⟩ := magnitude.canonical
  · left
    rw [flat, pow_zero]
  · right
    have scaled : 2 ^ 52 * 2 ^ magnitude.exponent ≤ magnitude.units :=
      Nat.mul_le_mul_right _ leading
    exact_mod_cast scaled

/-- Half a unit and less is all that is rounded to zero. -/
theorem NearestTo.significand_ne_zero (near : magnitude.NearestTo exact) (large : 1 / 2 < exact) :
    magnitude.significand ≠ 0 := by
  intro isZero
  obtain ⟨least, leastUnits⟩ :=
    exists_units (show 1 < 9007199254740992 by decide) (Nat.zero_le 2045)
  have leastEq : (least.units : ℚ) = 1 := by
    rw [leastUnits, Nat.pow_zero, Nat.mul_one, Nat.cast_one]
  have noUnits : (magnitude.units : ℚ) = 0 := by
    rw [units, isZero, Nat.zero_mul, Nat.cast_zero]
  have middle := (near_low_iff (by rw [leastEq, noUnits]; exact one_pos)).mp (near.near least)
  rw [leastEq, noUnits] at middle
  linarith

end Magnitude

namespace Binary64

variable {negative : Bool} {magnitude : Magnitude} {exact target : ℚ} {count : Nat}

theorem IsNearest.within_one (nearest : IsNearest negative exact (.finite negative magnitude))
    (large : 15 / 16 * leastNormal ≤ exact) : Within 1 magnitude.size exact := by
  have unitsPositive := DecimalGrid.unitsPerOne_pos_rat
  have exactLarge : 15 / 16 * 2 ^ 52 ≤ exact * unitsPerOne := by
    rw [← leastNormal_mul_unitsPerOne, ← mul_assoc]
    exact mul_le_mul_of_nonneg_right large unitsPositive.le
  cases nearest with
  | finite inRange near =>
      have nonzero := near.significand_ne_zero (by linarith)
      have distance := (near.reaches nonzero inRange).distance
      rw [abs_sub_le_iff] at distance
      have bounds : magnitude.units ≤ exact * unitsPerOne * roundingFactor ∧
          exact * unitsPerOne ≤ magnitude.units * roundingFactor := by
        unfold roundingFactor
        rcases magnitude.place_le with least | small
        · constructor <;> linarith
        · constructor <;> linarith
      rw [← magnitude.size_mul_unitsPerOne] at bounds
      have sizeBounds : magnitude.size ≤ exact * roundingFactor ∧
          exact ≤ magnitude.size * roundingFactor := by
        rw [mul_right_comm, mul_right_comm _ (unitsPerOne : ℚ)] at bounds
        exact ⟨le_of_mul_le_mul_right bounds.1 unitsPositive,
          le_of_mul_le_mul_right bounds.2 unitsPositive⟩
      have exactPositive : 0 < exact := by linarith [leastNormal_pos]
      have sizePositive : 0 < magnitude.size :=
        pos_of_mul_pos_left (exactPositive.trans_le sizeBounds.2)
          (zero_le_one.trans one_le_roundingFactor)
      rw [← pow_one roundingFactor] at sizeBounds
      exact ⟨sizePositive, exactPositive, sizeBounds.1, sizeBounds.2⟩

/-- A number that is rounded to a normal size is close to the normal sizes. -/
theorem IsNearest.large (nearest : IsNearest negative exact (.finite negative magnitude))
    (normal : leastNormal ≤ magnitude.size) : 15 / 16 * leastNormal ≤ exact := by
  have unitsPositive := DecimalGrid.unitsPerOne_pos_rat
  have unitsLarge : 2 ^ 52 ≤ (magnitude.units : ℚ) := by
    exact_mod_cast (leastNormal_le_size_iff magnitude).mp normal
  cases nearest with
  | finite inRange near =>
      have nonzero := magnitude.size_pos_iff.mp (leastNormal_pos.trans_le normal)
      have distance := (near.reaches nonzero inRange).distance
      rw [abs_sub_le_iff] at distance
      have exactLarge : 15 / 16 * leastNormal * unitsPerOne ≤ exact * unitsPerOne := by
        rw [mul_assoc, leastNormal_mul_unitsPerOne]
        rcases magnitude.place_le with least | small <;> linarith
      exact le_of_mul_le_mul_right exactLarge unitsPositive

/-- The value nearest to what a few roundings made of a normal size is one more rounding away. -/
theorem IsNearest.within (nearest : IsNearest negative exact (.finite negative magnitude))
    (before : Within count exact target) (few : count ≤ 5) (normal : leastNormal ≤ target) :
    Within (count + 1) magnitude.size target := by
  rw [Nat.add_comm]
  exact (nearest.within_one (before.leastNormal_le few normal)).trans before

/-- A whole number other than zero is at most one rounding away from its value. -/
theorem within_ofNat {value : Nat} (positive : 0 < value)
    (rounded : ofNat value = .finite false magnitude) : Within 1 magnitude.size value := by
  have atLeastOne : (1 : ℚ) ≤ value := by exact_mod_cast positive
  have nearest := isNearest_ofNat value
  rw [rounded] at nearest
  exact nearest.within_one (by linarith [leastNormal_le_one, leastNormal_pos])

end Binary64

end Keypad
