/-!
Contract: rounding of an exact quotient of natural numbers to a whole number.

Owns:
- the rule that a half goes to the even neighbour;
- its bounds by the quotient's floor.

Does not own: the grids that callers round to.
-/

namespace Keypad

/-- The whole number nearest to `numerator / denominator`; a half goes to the even one. -/
def roundHalfEven (numerator denominator : Nat) : Nat :=
  let quotient := numerator / denominator
  let doubled := 2 * (numerator % denominator)
  if denominator < doubled ∨ (doubled = denominator ∧ quotient % 2 = 1) then
    quotient + 1
  else
    quotient

theorem floor_le_roundHalfEven (numerator denominator : Nat) :
    numerator / denominator ≤ roundHalfEven numerator denominator := by
  simp only [roundHalfEven]
  split <;> omega

theorem roundHalfEven_le_succ_floor (numerator denominator : Nat) :
    roundHalfEven numerator denominator ≤ numerator / denominator + 1 := by
  simp only [roundHalfEven]
  split <;> omega

end Keypad
