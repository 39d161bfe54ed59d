import Keypad.Number.Rounding

/-!
Contract: the sizes of finite binary64 values.

Every finite binary64 value is a whole number of *units* of `2 ^ (-1074)`, so a size is a natural
number of units with at most 53 significant bits, and rounding needs no fractions beyond one exact
quotient.

Owns:
- magnitudes in canonical form, so that equal sizes are equal data;
- the unit count of a magnitude;
- rounding of an exact quotient of unit counts to the nearest magnitude.

Does not own: signs, infinities, arithmetic.
-/

namespace Keypad

/-- The canonical pairs: at most 53 bits, and a leading bit unless the exponent is the least. The
bounds of a significand are `2 ^ 52` and `2 ^ 53`. -/
def CanonicalParts (significand exponent : Nat) : Prop :=
  significand < 9007199254740992 ∧ exponent ≤ 2045 ∧
    (exponent = 0 ∨ 4503599627370496 ≤ significand)

instance (significand exponent : Nat) : Decidable (CanonicalParts significand exponent) :=
  inferInstanceAs
    (Decidable
      (significand < 9007199254740992 ∧ exponent ≤ 2045 ∧
        (exponent = 0 ∨ 4503599627370496 ≤ significand)))

/-- A finite size `significand * 2 ^ exponent`, counted in units of `2 ^ (-1074)`. -/
structure Magnitude where
  significand : Nat
  exponent : Nat
  canonical : CanonicalParts significand exponent
  deriving DecidableEq

namespace Magnitude

/-- The size as a whole number of units of `2 ^ (-1074)`. -/
def units (magnitude : Magnitude) : Nat :=
  magnitude.significand * Nat.pow 2 magnitude.exponent

/-- One, counted in units. -/
def unitsPerOne : Nat := Nat.pow 2 1074

def zero : Magnitude := ⟨0, 0, by decide⟩

def isZero (magnitude : Magnitude) : Bool := magnitude.significand == 0

/-- The exponent at which a quotient with this floor keeps 53 significant bits. -/
def exponentFor (floor : Nat) : Nat := floor.log2 - 52

private theorem floor_bounds (floor : Nat) :
    floor / Nat.pow 2 (exponentFor floor) < 9007199254740992 ∧
      (exponentFor floor = 0 ∨
        4503599627370496 ≤ floor / Nat.pow 2 (exponentFor floor)) := by
  have least : 4503599627370496 = 2 ^ 52 := by decide
  have limit : 9007199254740992 = 2 ^ 53 := by decide
  rw [Nat.pow_eq, least, limit]
  have powerPositive : 0 < 2 ^ exponentFor floor := Nat.two_pow_pos _
  have upper : floor < 2 ^ (floor.log2 + 1) := Nat.lt_log2_self
  rcases Nat.lt_or_ge floor.log2 52 with small | large
  · have exponentZero : exponentFor floor = 0 := by unfold exponentFor; omega
    have bound : 2 ^ (floor.log2 + 1) ≤ 2 ^ 53 := Nat.pow_le_pow_right (by decide) (by omega)
    rw [exponentZero]
    exact ⟨by rw [Nat.pow_zero, Nat.div_one]; omega, Or.inl rfl⟩
  · have logEq : floor.log2 = 52 + exponentFor floor := by unfold exponentFor; omega
    constructor
    · rw [Nat.div_lt_iff_lt_mul powerPositive, ← Nat.pow_add]
      have exponentEq : 53 + exponentFor floor = floor.log2 + 1 := by omega
      rw [exponentEq]
      exact upper
    · right
      rw [Nat.le_div_iff_mul_le powerPositive, ← Nat.pow_add, ← logEq]
      apply Nat.log2_self_le
      intro isZero
      rw [isZero] at large
      exact absurd large (by decide)

/-- The rounded significand at the exponent that suits the quotient. -/
def roundedSignificand (numerator denominator : Nat) : Nat :=
  roundHalfEven numerator
    (denominator * Nat.pow 2 (exponentFor (numerator / denominator)))

theorem roundedSignificand_bounds (numerator denominator : Nat) :
    roundedSignificand numerator denominator ≤ 9007199254740992 ∧
      (exponentFor (numerator / denominator) = 0 ∨
        4503599627370496 ≤ roundedSignificand numerator denominator) := by
  have bounds := floor_bounds (numerator / denominator)
  rw [Nat.div_div_eq_div_mul] at bounds
  have lower := floor_le_roundHalfEven numerator
    (denominator * Nat.pow 2 (exponentFor (numerator / denominator)))
  have upper := roundHalfEven_le_succ_floor numerator
    (denominator * Nat.pow 2 (exponentFor (numerator / denominator)))
  unfold roundedSignificand
  omega

/-- The magnitude nearest to `numerator / denominator` units, a half going to the even
significand; none when the exact size rounds beyond the greatest magnitude. -/
def ofQuotient? (numerator denominator : Nat) : Option Magnitude :=
  let exponent := exponentFor (numerator / denominator)
  let significand := roundedSignificand numerator denominator
  if carried : significand = 9007199254740992 then
    if inRange : exponent + 1 ≤ 2045 then
      some ⟨4503599627370496, exponent + 1, by decide, inRange, Or.inr (Nat.le_refl _)⟩
    else
      none
  else if inRange : exponent ≤ 2045 then
    some ⟨significand, exponent,
      Nat.lt_of_le_of_ne (roundedSignificand_bounds numerator denominator).1 carried, inRange,
      (roundedSignificand_bounds numerator denominator).2⟩
  else
    none

end Magnitude

end Keypad
