import Keypad.Json.Number
import Keypad.Proofs.Number.Arithmetic

/-!
Contract: numbers read from texts are finite.

Owns:
- which whole numbers, quotients and products of binary64 values stay in the finite range;
- that scaling by a power of ten gives finite values only, and always gives one downward;
- that a number read from any literal is finite;
- that the fewest digits of a magnitude, scaled up as a reader does, stay in the finite range.

Does not own: the texts of literals.

The greatest magnitude is apart: its digits exceed it, so no bound by half a unit of the last place
keeps them in range. They are scaled by computation, and so are the greatest digits that any other
magnitude may have with each of the great powers of ten.
-/

namespace Keypad

open Magnitude (overflowUnits unitsPerOne)

namespace Binary64

theorem isFinite_ofQuotient {negative : Bool} {numerator denominator : Nat}
    (positive : 0 < denominator) (inRange : numerator < overflowUnits * denominator) :
    ∃ magnitude, ofQuotient negative numerator denominator = .finite negative magnitude :=
  (isFinite_ofQuotient_iff negative numerator positive).mpr inRange

/-- The powers of ten in the finite range. -/
theorem power_lt_overflowUnits {power : Nat} (inRange : power ≤ 308) :
    Nat.pow 10 power * unitsPerOne < overflowUnits := by
  have greatest : Nat.pow 10 308 * unitsPerOne < overflowUnits := by decide +kernel
  generalize powerEq : 308 = limit at *
  have ordered : Nat.pow 10 power ≤ Nat.pow 10 limit := Nat.pow_le_pow_right (by decide) inRange
  exact Nat.lt_of_le_of_lt (Nat.mul_le_mul_right _ ordered) greatest

theorem isFinite_ofNat {value power : Nat} (inRange : power ≤ 308)
    (bound : value ≤ Nat.pow 10 power) : ∃ magnitude, ofNat value = .finite false magnitude := by
  apply isFinite_ofQuotient Nat.one_pos
  rw [Nat.mul_one]
  exact Nat.lt_of_le_of_lt (Nat.mul_le_mul_right _ bound) (power_lt_overflowUnits inRange)

theorem ofNat_mono {value larger : Nat} {low high : Magnitude} (ordered : value ≤ larger)
    (lowRounded : ofNat value = .finite false low) (highRounded : ofNat larger = .finite false high) :
    low.units ≤ high.units := by
  refine ofQuotient_mono Nat.one_pos Nat.one_pos ?_ lowRounded highRounded
  exact Nat.mul_le_mul_right _ (Nat.mul_le_mul_right _ ordered)

theorem units_ofNat_one {magnitude : Magnitude} (rounded : ofNat 1 = .finite false magnitude) :
    magnitude.units = unitsPerOne := by
  have one : ofNat 1 = .finite false ⟨4503599627370496, 1022, by decide⟩ := by decide +kernel
  rw [one] at rounded
  cases rounded
  decide +kernel

theorem div_isFinite {negative : Bool} {size divisor : Magnitude}
    (divisorLarge : unitsPerOne ≤ divisor.units) :
    ∃ quotient, (finite negative size / finite false divisor : Binary64) =
      .finite negative quotient := by
  have unitsPositive := Magnitude.unitsPerOne_pos
  rw [div_finite negative size (Nat.lt_of_lt_of_le unitsPositive divisorLarge)]
  apply isFinite_ofQuotient (by omega)
  exact Nat.mul_lt_mul_of_lt_of_le (Magnitude.units_lt_overflowUnits size) divisorLarge (by omega)

@[simp]
theorem isFinite_finite (negative : Bool) (size : Magnitude) :
    (finite negative size).isFinite = true := rfl

@[simp]
theorem isFinite_neg (value : Binary64) : (-value).isFinite = value.isFinite := by
  cases value <;> rfl

end Binary64

namespace Json

open Binary64 (isFinite_ofNat)

theorem powerOfTen_finite {power : Nat} (bound : power ≤ 308) :
    ∃ magnitude, powerOfTen power = .finite false magnitude ∧ unitsPerOne ≤ magnitude.units := by
  obtain ⟨one, oneRounded⟩ := isFinite_ofNat (Nat.zero_le 308) (Nat.le_refl 1)
  obtain ⟨magnitude, rounded⟩ := isFinite_ofNat bound (Nat.le_refl _)
  refine ⟨magnitude, rounded, ?_⟩
  rw [← Binary64.units_ofNat_one oneRounded]
  exact Binary64.ofNat_mono (Nat.one_le_pow _ _ (by decide)) oneRounded rounded

/-- Dividing by a power of ten keeps a value finite and keeps its sign. -/
theorem div_powerOfTen {power : Nat} (bound : power ≤ 308) (negative : Bool) (size : Magnitude) :
    ∃ quotient, Binary64.finite negative size / powerOfTen power = .finite negative quotient := by
  obtain ⟨divisor, divisorEq, large⟩ := powerOfTen_finite bound
  rw [divisorEq]
  exact Binary64.div_isFinite large

/-- Scaling gives finite values only, of the same sign. -/
theorem scale_finite {negative : Bool} {size : Magnitude} {power : Int} {scaled : Binary64}
    (read : scale (.finite negative size) power = some scaled) :
    ∃ magnitude, scaled = .finite negative magnitude := by
  generalize start : Binary64.finite negative size = value at read
  fun_induction scale value power generalizing size with
  | case1 => cases read
  | case2 value power bound upward product =>
      next notInfinite =>
      obtain ⟨factor, factorEq, _⟩ := powerOfTen_finite bound
      have productEq : product = .ofQuotient negative (size.units * factor.units) unitsPerOne := by
        rw [← Binary64.mul_finite, start, ← factorEq]
      rw [productEq] at notInfinite read
      unfold Binary64.ofQuotient at notInfinite read
      split at read
      next magnitude _ =>
        cases read
        exact ⟨magnitude, rfl⟩
      next overflowed =>
        rw [overflowed] at notInfinite
        exact absurd rfl notInfinite
  | case3 value power bound _ =>
      obtain ⟨quotient, quotientEq⟩ := div_powerOfTen bound negative size
      cases read
      exact ⟨quotient, start ▸ quotientEq⟩
  | case4 =>
      cases read
      exact ⟨size, start.symm⟩
  | case5 => cases read
  | case6 value power beyond nonzero downward inductionHypothesis =>
      obtain ⟨quotient, quotientEq⟩ := div_powerOfTen (Nat.le_refl 308) negative size
      subst start
      exact inductionHypothesis quotientEq.symm read

/-- Scaling down always gives a value. -/
theorem scale_downward (negative : Bool) (size : Magnitude) {power : Int} (downward : power < 0) :
    ∃ magnitude, scale (.finite negative size) power = some (.finite negative magnitude) := by
  suffices answered : (scale (.finite negative size) power).isSome by
    obtain ⟨scaled, read⟩ := Option.isSome_iff_exists.mp answered
    obtain ⟨magnitude, scaledEq⟩ := scale_finite read
    exact ⟨magnitude, scaledEq ▸ read⟩
  generalize start : Binary64.finite negative size = value
  fun_induction scale value power generalizing size with
  | case1 => omega
  | case2 => omega
  | case3 => rfl
  | case4 => rfl
  | case5 => omega
  | case6 value power beyond nonzero upward inductionHypothesis =>
      obtain ⟨quotient, quotientEq⟩ := div_powerOfTen (Nat.le_refl 308) negative size
      subst start
      exact inductionHypothesis quotient (by omega) quotientEq.symm

/-! ## Reading within the range -/

theorem accumulate_le {significand : Nat} (bound : significand ≤ naturalLimit)
    (digits : List Char) : (accumulate significand digits).1 ≤ naturalLimit := by
  fun_induction accumulate significand digits with
  | case1 => exact bound
  | case2 significand digit rest extended fits inductionHypothesis => exact inductionHypothesis fits
  | case3 => exact bound

theorem isFinite_ofNat_of_le_naturalLimit {value : Nat} (bound : value ≤ naturalLimit) :
    ∃ magnitude, Binary64.ofNat value = .finite false magnitude :=
  isFinite_ofNat (show 20 ≤ 308 by decide) (bound.trans (by decide))

theorem NumberLiteral.size?_finite {literal : NumberLiteral} {size : Binary64}
    (read : literal.size? = some size) : ∃ magnitude, size = .finite false magnitude := by
  unfold size? at read
  dsimp only at read
  have bound := accumulate_le
    (accumulate_le (Nat.zero_le naturalLimit) literal.whole) (literal.fraction.getD [])
  obtain ⟨start, startEq⟩ := isFinite_ofNat_of_le_naturalLimit bound
  rw [startEq] at read
  split at read
  · exact scale_finite read
  · split at read
    · exact scale_finite read
    · split at read
      · cases read
        exact ⟨.zero, rfl⟩
      · simp at read

/-- A number that is read at all is finite. -/
theorem NumberLiteral.number_isFinite {literal : NumberLiteral} {number : Number}
    (read : literal.number = .ok number) : number.toBinary64.isFinite = true := by
  have wholeBound := accumulate_le (Nat.zero_le naturalLimit) literal.whole
  obtain ⟨whole, wholeEq⟩ := isFinite_ofNat_of_le_naturalLimit wholeBound
  unfold NumberLiteral.number at read
  split at read
  next found =>
    cases read
    unfold whole? at found
    dsimp only at found
    split_ifs at found <;> cases found <;> simp [Number.toBinary64, wholeEq]
  next =>
    split at read
    next size sizeRead =>
      obtain ⟨magnitude, sizeEq⟩ := NumberLiteral.size?_finite sizeRead
      cases read
      rw [sizeEq]
      simp only [Number.toBinary64]
      split_ifs <;> simp
    next => cases read

theorem readNumber_isFinite {text rest : List Char} {number : Number}
    (read : readNumber text = .ok (number, rest)) : number.toBinary64.isFinite = true := by
  unfold readNumber at read
  split at read
  · simp at read
  · split at read
    next found =>
      cases read
      exact NumberLiteral.number_isFinite found
    · simp at read

/-! ## Scaling up the fewest digits -/

/-- Above the fewest digits of every magnitude. -/
def digitsLimit : Nat := 180143985094819850

/-- Half a unit of the last place above the greatest magnitude but one. -/
def reachUnits : Nat := 18014398509481981 * Nat.pow 2 2044

/-- The greatest coefficient that is not above the reach with a given power of ten. -/
def reachDigits (power : Nat) : Nat :=
  min digitsLimit (reachUnits / (Nat.pow 10 power * unitsPerOne))

theorem reachDigits_scaled :
    ∀ power < 18, (Binary64.ofNat (reachDigits (291 + power)) * powerOfTen (291 + power)).isFinite =
      true := by
  decide +kernel

theorem digitsLimit_scaled : (Binary64.ofNat digitsLimit * powerOfTen 290).isFinite = true := by
  decide +kernel

theorem mul_powerOfTen_mono {coefficient larger power greater : Nat}
    (coefficients : coefficient ≤ larger) (powers : power ≤ greater) (inRange : greater ≤ 308)
    (bound : larger ≤ digitsLimit)
    (scaled : (Binary64.ofNat larger * powerOfTen greater).isFinite = true) :
    ∃ magnitude, Binary64.ofNat coefficient * powerOfTen power = .finite false magnitude := by
  have limitBound : digitsLimit ≤ Nat.pow 10 20 := by decide
  have powerRange := powers.trans inRange
  obtain ⟨low, lowEq⟩ :=
    isFinite_ofNat (show 20 ≤ 308 by decide) ((coefficients.trans bound).trans limitBound)
  obtain ⟨high, highEq⟩ := isFinite_ofNat (show 20 ≤ 308 by decide) (bound.trans limitBound)
  obtain ⟨factor, factorEq, _⟩ := powerOfTen_finite powerRange
  obtain ⟨greatest, greatestEq, _⟩ := powerOfTen_finite inRange
  have coefficientOrder := Binary64.ofNat_mono coefficients lowEq highEq
  have factorOrder := Binary64.ofNat_mono (Nat.pow_le_pow_right (by decide) powers) factorEq
    greatestEq
  rw [lowEq, factorEq, Binary64.mul_finite]
  rw [highEq, greatestEq, Binary64.mul_finite] at scaled
  apply Binary64.isFinite_ofQuotient Magnitude.unitsPerOne_pos
  apply Nat.lt_of_le_of_lt (Nat.mul_le_mul coefficientOrder factorOrder)
  rw [← Binary64.isFinite_ofQuotient_iff false _ Magnitude.unitsPerOne_pos]
  unfold Binary64.ofQuotient at scaled ⊢
  split at scaled
  next magnitude _ => exact ⟨magnitude, rfl⟩
  next => cases scaled

/-- Digits within the reach stay in the finite range when they are scaled up. -/
theorem mul_powerOfTen_of_reach {coefficient power : Nat} (bound : coefficient ≤ digitsLimit)
    (inRange : power ≤ 308)
    (reached : coefficient * (Nat.pow 10 power * unitsPerOne) ≤ reachUnits) :
    ∃ magnitude, Binary64.ofNat coefficient * powerOfTen power = .finite false magnitude := by
  rcases Nat.lt_or_ge power 291 with small | large
  · exact mul_powerOfTen_mono bound (Nat.le_of_lt_succ small) (by decide) (Nat.le_refl _)
      digitsLimit_scaled
  · have powerPositive : 0 < Nat.pow 10 power * unitsPerOne :=
      Nat.mul_pos (Nat.pow_pos (by decide)) Magnitude.unitsPerOne_pos
    have withinReach : coefficient ≤ reachDigits power :=
      Nat.le_min.mpr ⟨bound, (Nat.le_div_iff_mul_le powerPositive).mpr reached⟩
    have scaled := reachDigits_scaled (power - 291) (by omega)
    rw [Nat.add_sub_cancel' large] at scaled
    exact mul_powerOfTen_mono withinReach (Nat.le_refl _) inRange (Nat.min_le_left _ _) scaled

/-- The greatest magnitude. -/
def greatest : Magnitude := ⟨9007199254740991, 2045, by decide⟩

theorem shortest_greatest : greatest.shortest .toEven = ⟨17976931348623157, 292⟩ := by
  decide +kernel

theorem shortest_greatest_scaled :
    (Binary64.ofNat 17976931348623157 * powerOfTen 292).isFinite = true := by
  decide +kernel

/-- Half a unit of the last place above any magnitude but the greatest is within the reach. -/
theorem twice_units_add_le_reachUnits {magnitude : Magnitude} (different : magnitude ≠ greatest) :
    2 * magnitude.units + 2 ^ magnitude.exponent ≤ 2 * reachUnits := by
  obtain ⟨significandBound, exponentBound, _⟩ := magnitude.canonical
  have unitsEq : magnitude.units = magnitude.significand * 2 ^ magnitude.exponent := rfl
  have doubled : 2 * magnitude.units + 2 ^ magnitude.exponent =
      (2 * magnitude.significand + 1) * 2 ^ magnitude.exponent := by
    rw [unitsEq]
    ring
  have reachEq : 2 * reachUnits = 2 * 18014398509481981 * 2 ^ 2044 := by
    unfold reachUnits
    generalize 2044 = limit
    rw [Nat.pow_eq, Nat.mul_assoc]
  rw [doubled, reachEq]
  rcases Nat.lt_or_ge magnitude.exponent 2045 with smaller | largest
  · have exponentLe : magnitude.exponent ≤ 2044 := Nat.le_of_lt_succ smaller
    generalize 2044 = limit at *
    exact Nat.mul_le_mul (by omega) (Nat.pow_le_pow_right (by decide) exponentLe)
  · have exponentEq : magnitude.exponent = 2044 + 1 := by omega
    have notGreatest : magnitude.significand ≠ 9007199254740991 := by
      intro same
      apply different
      cases magnitude
      simp only at same exponentEq
      simp only [greatest, same, exponentEq]
    rw [exponentEq]
    generalize 2044 = limit
    rw [Nat.pow_succ, ← Nat.mul_assoc, Nat.mul_right_comm]
    exact Nat.mul_le_mul_right _ (by omega)

/-- The fewest digits of a magnitude, scaled as a reader does, give a finite value. -/
theorem scale_shortest {magnitude : Magnitude} (nonzero : magnitude.significand ≠ 0) :
    ∃ reread, scale (.ofNat (magnitude.shortest .toEven).coefficient)
      (magnitude.shortest .toEven).exponent = some (.finite false reread) := by
  obtain ⟨positive, digitsBound, lowest, highest, size⟩ :=
    Magnitude.shortest_bounds .toEven nonzero
  obtain ⟨significandBound, _, _⟩ := magnitude.canonical
  have coefficientBound : (magnitude.shortest .toEven).coefficient ≤ digitsLimit := by
    unfold digitsLimit
    omega
  rcases Int.lt_or_le (magnitude.shortest .toEven).exponent 0 with downward | upward
  · obtain ⟨start, startEq⟩ :=
      isFinite_ofNat (show 20 ≤ 308 by decide) (coefficientBound.trans (by decide))
    rw [startEq]
    exact scale_downward false start downward
  · have inRange : (magnitude.shortest .toEven).exponent.natAbs ≤ 308 := by omega
    obtain ⟨reread, rereadEq⟩ : ∃ reread,
        Binary64.ofNat (magnitude.shortest .toEven).coefficient *
          powerOfTen (magnitude.shortest .toEven).exponent.natAbs = .finite false reread := by
      by_cases isGreatest : magnitude = greatest
      · rw [isGreatest, shortest_greatest]
        exact mul_powerOfTen_mono (Nat.le_refl _) (Nat.le_refl _) (by decide) (by decide)
          shortest_greatest_scaled
      · apply mul_powerOfTen_of_reach coefficientBound inRange
        have within := twice_units_add_le_reachUnits isGreatest
        have withinRat : 2 * (magnitude.units : ℚ) + 2 ^ magnitude.exponent ≤ 2 * reachUnits := by
          exact_mod_cast within
        rw [ten_zpow_of_nonneg upward] at size
        have reached : ((magnitude.shortest .toEven).coefficient : ℚ) *
            (10 ^ (magnitude.shortest .toEven).exponent.natAbs * unitsPerOne) ≤ reachUnits := by
          rw [← mul_assoc]
          linarith
        exact_mod_cast reached
    refine ⟨reread, ?_⟩
    unfold scale
    rw [if_pos inRange, if_pos upward, rereadEq]
    rfl

end Json

end Keypad
