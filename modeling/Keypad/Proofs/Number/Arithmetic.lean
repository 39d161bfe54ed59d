import Keypad.Proofs.Number.Shortest

/-!
Contract: finite values as numbers, and the arithmetic of them.

Owns:
- the size of a magnitude and the number that a finite value is;
- that a product and a quotient are the values nearest to the exact ones;
- the whole numbers that are values themselves, and the powers of ten among them.

Does not own: how far a rounded value is from the exact one, sums.
-/

namespace Keypad

namespace Magnitude

/-- The size as a number. -/
def size (magnitude : Magnitude) : ℚ := magnitude.units / unitsPerOne

theorem size_mul_unitsPerOne (magnitude : Magnitude) :
    magnitude.size * unitsPerOne = magnitude.units :=
  div_mul_cancel₀ _ DecimalGrid.unitsPerOne_pos_rat.ne'

theorem size_nonneg (magnitude : Magnitude) : 0 ≤ magnitude.size :=
  div_nonneg (Nat.cast_nonneg _) (Nat.cast_nonneg _)

theorem size_pos_iff_units (magnitude : Magnitude) : 0 < magnitude.size ↔ 0 < magnitude.units := by
  rw [size, div_pos_iff_of_pos_right DecimalGrid.unitsPerOne_pos_rat, Nat.cast_pos]

theorem size_pos_iff (magnitude : Magnitude) : 0 < magnitude.size ↔ magnitude.significand ≠ 0 := by
  rw [size_pos_iff_units, units, CanonicallyOrderedAdd.mul_pos, Nat.pos_iff_ne_zero]
  exact and_iff_left (Nat.two_pow_pos _)

/-- Fewer than 53 bits and a power of two make a magnitude, at a smaller power if the leading bit
asks for it. -/
theorem exists_units {count power : Nat} (small : count < 9007199254740992)
    (inRange : power ≤ 2045) : ∃ magnitude : Magnitude, magnitude.units = count * 2 ^ power := by
  induction power generalizing count with
  | zero => exact ⟨⟨count, 0, small, Nat.zero_le _, .inl rfl⟩, rfl⟩
  | succ power inductionHypothesis =>
      rcases Nat.lt_or_ge count 4503599627370496 with short | full
      · obtain ⟨magnitude, unitsEq⟩ :=
          inductionHypothesis (show 2 * count < 9007199254740992 by omega) (by omega)
        refine ⟨magnitude, ?_⟩
        rw [unitsEq, Nat.pow_succ]
        ring
      · exact ⟨⟨count, power + 1, small, inRange, .inr full⟩, rfl⟩

end Magnitude

namespace Binary64

open Magnitude (unitsPerOne)

/-- The number that a finite value is; zero for the other values. -/
def toRat : Binary64 → ℚ
  | .finite negative magnitude => signedUnits negative magnitude / unitsPerOne
  | _ => 0

theorem toRat_finite (negative : Bool) (magnitude : Magnitude) :
    toRat (.finite negative magnitude) = (if negative then -1 else 1) * magnitude.size := by
  cases negative with
  | false =>
      show ((magnitude.units : ℤ) : ℚ) / unitsPerOne = 1 * (magnitude.units / unitsPerOne)
      rw [Int.cast_natCast, one_mul]
  | true =>
      show ((-(magnitude.units : ℤ) : ℤ) : ℚ) / unitsPerOne =
        -1 * (magnitude.units / unitsPerOne)
      rw [Int.cast_neg, Int.cast_natCast, neg_div, neg_one_mul]

theorem abs_toRat_finite (negative : Bool) (magnitude : Magnitude) :
    |toRat (.finite negative magnitude)| = magnitude.size := by
  rw [toRat_finite]
  cases negative <;> simp [magnitude.size_nonneg]

theorem abs_toRat_sub_toRat (negative : Bool) (left right : Magnitude) :
    |toRat (.finite negative left) - toRat (.finite negative right)| =
      |left.size - right.size| := by
  rw [toRat_finite, toRat_finite, ← mul_sub, abs_mul]
  cases negative <;> simp

/-! ## Products and quotients -/

theorem mul_finite (negative : Bool) (size factor : Magnitude) :
    (finite negative size * finite false factor : Binary64) =
      ofQuotient negative (size.units * factor.units) unitsPerOne := by
  show mul _ _ = _
  simp only [mul, Bool.xor_false]

theorem div_finite (negative : Bool) (size : Magnitude) {divisor : Magnitude}
    (positive : 0 < divisor.units) :
    (finite negative size / finite false divisor : Binary64) =
      ofQuotient negative (size.units * unitsPerOne) divisor.units := by
  have nonzero : divisor.isZero = false := by
    rw [Bool.eq_false_iff]
    intro isZero
    rw [Magnitude.units, divisor.isZero_iff.mp isZero, Nat.zero_mul] at positive
    exact Nat.lt_irrefl 0 positive
  show div _ _ = _
  simp only [div, nonzero, Bool.xor_false, Bool.false_eq_true, if_false]

theorem isNearest_mul (negative : Bool) (size factor : Magnitude) :
    IsNearest negative (size.size * factor.size) (finite negative size * finite false factor) := by
  rw [mul_finite]
  apply isNearest_ofQuotient negative _ Magnitude.unitsPerOne_pos
  have unitsPositive := DecimalGrid.unitsPerOne_pos_rat
  unfold Magnitude.size
  generalize (unitsPerOne : ℚ) = units at *
  push_cast
  field_simp

theorem isNearest_div (negative : Bool) (size : Magnitude) {divisor : Magnitude}
    (positive : 0 < divisor.units) :
    IsNearest negative (size.size / divisor.size)
      (finite negative size / finite false divisor) := by
  rw [div_finite negative size positive]
  apply isNearest_ofQuotient negative _ positive
  have unitsPositive := DecimalGrid.unitsPerOne_pos_rat
  have divisorPositive : (0 : ℚ) < divisor.units := by exact_mod_cast positive
  unfold Magnitude.size
  rw [Nat.cast_mul]
  generalize (unitsPerOne : ℚ) = units at *
  field_simp

/-! ## Values that need no rounding -/

/-- A magnitude is the value nearest to its own size. -/
theorem isNearest_size (negative : Bool) (magnitude : Magnitude) :
    IsNearest negative magnitude.size (.finite negative magnitude) := by
  refine .finite ?_ ?_
  · rw [magnitude.size_mul_unitsPerOne]
    exact_mod_cast magnitude.units_lt_overflowUnits
  · rw [magnitude.size_mul_unitsPerOne]
    exact magnitude.nearestTo_units

theorem IsNearest.eq_of_size {negative : Bool} {magnitude : Magnitude} {value : Binary64}
    (nearest : IsNearest negative magnitude.size value) : value = .finite negative magnitude :=
  nearest.unique (isNearest_size negative magnitude)

/-- Whole numbers of less than 53 bits, with any zeros behind them, are values. -/
theorem ofNat_mul_two_pow {count shift : Nat} (small : count < 9007199254740992)
    (inRange : shift ≤ 971) :
    ∃ magnitude, ofNat (count * 2 ^ shift) = .finite false magnitude ∧
      magnitude.size = (count * 2 ^ shift : Nat) := by
  obtain ⟨magnitude, unitsEq⟩ :=
    Magnitude.exists_units small (show shift + 1074 ≤ 2045 by omega)
  have sizeEq : magnitude.size = (count * 2 ^ shift : Nat) := by
    have unitsPositive := DecimalGrid.unitsPerOne_pos_rat
    have scaled : magnitude.units = count * 2 ^ shift * unitsPerOne := by
      rw [unitsEq, DecimalGrid.unitsPerOne_eq]
      generalize 1074 = place
      rw [Nat.pow_add, Nat.mul_assoc]
    rw [Magnitude.size, scaled, Nat.cast_mul, mul_div_cancel_right₀ _ unitsPositive.ne']
  have nearest := isNearest_ofNat (count * 2 ^ shift)
  rw [← sizeEq] at nearest
  exact ⟨magnitude, nearest.eq_of_size, sizeEq⟩

theorem ofNat_of_lt {value : Nat} (small : value < 9007199254740992) :
    ∃ magnitude, ofNat value = .finite false magnitude ∧ magnitude.size = value := by
  have unshifted := ofNat_mul_two_pow small (Nat.zero_le 971)
  rwa [Nat.pow_zero, Nat.mul_one] at unshifted

/-- The odd part of a power of ten up to `10 ^ 22` has less than 53 bits. -/
theorem ofNat_ten_pow {power : Nat} (inRange : power ≤ 22) :
    ∃ magnitude, ofNat (10 ^ power) = .finite false magnitude ∧ magnitude.size = 10 ^ power := by
  have parts : 10 ^ power = 5 ^ power * 2 ^ power := by rw [← Nat.mul_pow]
  have small : 5 ^ power < 9007199254740992 :=
    Nat.lt_of_le_of_lt (Nat.pow_le_pow_right (by decide) inRange) (by decide)
  obtain ⟨magnitude, valueEq, sizeEq⟩ := ofNat_mul_two_pow small (show power ≤ 971 by omega)
  rw [← parts] at valueEq sizeEq
  exact ⟨magnitude, valueEq, by rw [sizeEq]; push_cast; rfl⟩

end Binary64

end Keypad
