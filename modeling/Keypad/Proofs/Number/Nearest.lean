import Mathlib.Algebra.Order.Field.Rat
import Mathlib.Data.Rat.Cast.Order
import Mathlib.Tactic.FieldSimp
import Mathlib.Tactic.Linarith
import Mathlib.Tactic.Positivity
import Mathlib.Tactic.Ring
import Keypad.Number.Binary64

/-!
Contract: rounding to whole numbers and to magnitudes is rounding to a nearest one.

Owns:
- the distance between a quotient and its rounded value, and which end a tie takes;
- the order of magnitudes and the gap above each of them;
- what it means for a magnitude to be nearest to an exact size, with uniqueness and order;
- that rounding an exact quotient gives the nearest magnitude, and when there is none.

Does not own: signs, infinities, decimal numbers.
-/

namespace Keypad

/-! ## Whole numbers -/

/-- Rounding moves a quotient by at most a half, and by a half only to an even number. -/
theorem roundHalfEven_distance (numerator : Nat) {denominator : Nat}
    (positive : 0 < denominator) :
    |(numerator : ℚ) / denominator - roundHalfEven numerator denominator| ≤ 1 / 2 ∧
      (|(numerator : ℚ) / denominator - roundHalfEven numerator denominator| = 1 / 2 →
        roundHalfEven numerator denominator % 2 = 0) := by
  have denominatorPositive : (0 : ℚ) < denominator := by exact_mod_cast positive
  have recombined : (denominator : ℚ) * (numerator / denominator : Nat) +
      (numerator % denominator : Nat) = numerator := by
    exact_mod_cast Nat.div_add_mod numerator denominator
  have ratio : (numerator : ℚ) / denominator =
      (numerator / denominator : Nat) + ((numerator % denominator : Nat) : ℚ) / denominator := by
    rw [← recombined]
    field_simp
  have remainderNonnegative : (0 : ℚ) ≤ ((numerator % denominator : Nat) : ℚ) / denominator := by
    positivity
  rw [ratio]
  unfold roundHalfEven
  dsimp only
  split
  next up =>
    have half : (1 : ℚ) / 2 ≤ ((numerator % denominator : Nat) : ℚ) / denominator := by
      rw [le_div_iff₀ denominatorPositive]
      have doubled : (denominator : ℚ) ≤ 2 * (numerator % denominator : Nat) := by
        exact_mod_cast (show denominator ≤ 2 * (numerator % denominator) by omega)
      linarith
    have below : ((numerator % denominator : Nat) : ℚ) / denominator < 1 := by
      rw [div_lt_one denominatorPositive]
      exact_mod_cast Nat.mod_lt numerator positive
    have distance :
        |((numerator / denominator : Nat) : ℚ) +
            ((numerator % denominator : Nat) : ℚ) / denominator -
            ((numerator / denominator + 1 : Nat) : ℚ)| =
          1 - ((numerator % denominator : Nat) : ℚ) / denominator := by
      push_cast
      rw [abs_of_nonpos (by linarith)]
      ring
    rw [distance]
    refine ⟨by linarith, fun tie => ?_⟩
    have tied : 2 * (numerator % denominator) = denominator := by
      have halved : ((numerator % denominator : Nat) : ℚ) / denominator = 1 / 2 := by linarith
      rw [div_eq_iff denominatorPositive.ne'] at halved
      exact_mod_cast (show (2 : ℚ) * (numerator % denominator : Nat) = denominator by linarith)
    omega
  next down =>
    have half : ((numerator % denominator : Nat) : ℚ) / denominator ≤ 1 / 2 := by
      rw [div_le_iff₀ denominatorPositive]
      have doubled : (2 : ℚ) * (numerator % denominator : Nat) ≤ denominator := by
        exact_mod_cast (show 2 * (numerator % denominator) ≤ denominator by omega)
      linarith
    rw [add_sub_cancel_left, abs_of_nonneg remainderNonnegative]
    refine ⟨half, fun tie => ?_⟩
    have tied : 2 * (numerator % denominator) = denominator := by
      rw [div_eq_iff denominatorPositive.ne'] at tie
      exact_mod_cast (show (2 : ℚ) * (numerator % denominator : Nat) = denominator by linarith)
    omega

/-- A rounded quotient is a nearest whole number, and another one equally near makes it even. -/
theorem roundHalfEven_nearest (numerator : Nat) {denominator : Nat}
    (positive : 0 < denominator) (other : Nat) :
    |(numerator : ℚ) / denominator - roundHalfEven numerator denominator| ≤
        |(numerator : ℚ) / denominator - other| ∧
      (|(numerator : ℚ) / denominator - roundHalfEven numerator denominator| =
          |(numerator : ℚ) / denominator - other| →
        other ≠ roundHalfEven numerator denominator →
        roundHalfEven numerator denominator % 2 = 0) := by
  obtain ⟨near, tie⟩ := roundHalfEven_distance numerator positive
  by_cases same : other = roundHalfEven numerator denominator
  · subst same
    exact ⟨le_refl _, fun _ different => absurd rfl different⟩
  · have apart : (1 : ℚ) ≤ |(roundHalfEven numerator denominator : ℚ) - other| := by
      have integerApart : (1 : ℤ) ≤ |(roundHalfEven numerator denominator : ℤ) - other| :=
        Int.one_le_abs (by omega)
      exact_mod_cast integerApart
    have triangle := abs_sub_le (roundHalfEven numerator denominator : ℚ)
      ((numerator : ℚ) / denominator) other
    rw [abs_sub_comm (roundHalfEven numerator denominator : ℚ) (numerator / denominator)]
      at triangle
    refine ⟨by linarith, fun equal _ => tie ?_⟩
    linarith

/-- An even number is reached by rounding from half a unit below it on. -/
theorem le_roundHalfEven_iff {count : Nat} (even : count % 2 = 0) (numerator : Nat)
    {denominator : Nat} (positive : 0 < denominator) :
    count ≤ roundHalfEven numerator denominator ↔
      2 * count * denominator ≤ 2 * numerator + denominator := by
  have recombined := Nat.div_add_mod numerator denominator
  have remainderBelow := Nat.mod_lt numerator positive
  have lower := floor_le_roundHalfEven numerator denominator
  have upper := roundHalfEven_le_succ_floor numerator denominator
  generalize quotientEq : numerator / denominator = quotient at *
  generalize remainderEq : numerator % denominator = remainder at *
  rcases Nat.lt_trichotomy count (quotient + 1) with within | next | beyond
  · have scaled : denominator * count ≤ denominator * quotient :=
      Nat.mul_le_mul_left _ (by omega)
    have reached : 2 * count * denominator ≤ 2 * numerator + denominator := by
      rw [Nat.mul_assoc, Nat.mul_comm count]
      omega
    exact ⟨fun _ => reached, fun _ => by omega⟩
  · have expanded : 2 * count * denominator = 2 * (denominator * quotient) + 2 * denominator := by
      rw [next]
      ring
    unfold roundHalfEven
    dsimp only
    rw [quotientEq, remainderEq, expanded]
    split <;> omega
  · have scaled : denominator * (quotient + 2) ≤ denominator * count :=
      Nat.mul_le_mul_left _ (by omega)
    rw [Nat.mul_add] at scaled
    rw [Nat.mul_assoc, Nat.mul_comm count]
    omega

namespace Magnitude

/-! ## Magnitudes in order -/

theorem units_lt_of_exponent_lt {magnitude : Magnitude} {exponent : Nat}
    (below : magnitude.exponent < exponent) :
    magnitude.units < 4503599627370496 * 2 ^ exponent := by
  have scale : 2 * 2 ^ magnitude.exponent ≤ 2 ^ exponent := by
    rw [← Nat.pow_succ']
    exact Nat.pow_le_pow_right (by decide) below
  have powerPositive : 0 < 2 ^ magnitude.exponent := Nat.two_pow_pos _
  calc magnitude.units = magnitude.significand * 2 ^ magnitude.exponent := rfl
    _ < 9007199254740992 * 2 ^ magnitude.exponent :=
        Nat.mul_lt_mul_of_pos_right magnitude.canonical.1 powerPositive
    _ = 4503599627370496 * (2 * 2 ^ magnitude.exponent) := by ring
    _ ≤ 4503599627370496 * 2 ^ exponent := Nat.mul_le_mul_left _ scale

/-- A magnitude above another is at least one unit of the other's last place above it. -/
theorem units_succ_le {low high : Magnitude} (below : low.units < high.units) :
    low.units + 2 ^ low.exponent ≤ high.units := by
  rcases Nat.lt_or_ge high.exponent low.exponent with smaller | larger
  · have bound := units_lt_of_exponent_lt smaller
    have leading : 4503599627370496 ≤ low.significand :=
      low.canonical.2.2.resolve_left (by omega)
    have reached : 4503599627370496 * 2 ^ low.exponent ≤ low.units :=
      Nat.mul_le_mul_right _ leading
    omega
  · obtain ⟨gap, gapEq⟩ := Nat.exists_eq_add_of_le larger
    have highUnits : high.units = high.significand * 2 ^ gap * 2 ^ low.exponent := by
      change high.significand * 2 ^ high.exponent = _
      rw [gapEq, Nat.pow_add]
      ring
    have lowUnits : low.units = low.significand * 2 ^ low.exponent := rfl
    rw [highUnits, lowUnits] at below
    have counted := Nat.lt_of_mul_lt_mul_right below
    rw [highUnits, lowUnits, ← Nat.succ_mul]
    exact Nat.mul_le_mul_right _ counted

theorem isZero_iff (magnitude : Magnitude) :
    magnitude.isZero = true ↔ magnitude.significand = 0 := beq_iff_eq

theorem units_injective {left right : Magnitude} (same : left.units = right.units) :
    left = right := by
  have notBelow : ∀ {low high : Magnitude}, low.exponent < high.exponent →
      low.units ≠ high.units := by
    intro low high below equal
    have bound := units_lt_of_exponent_lt below
    have leading : 4503599627370496 ≤ high.significand :=
      high.canonical.2.2.resolve_left (by omega)
    have reached : 4503599627370496 * 2 ^ high.exponent ≤ high.units :=
      Nat.mul_le_mul_right _ leading
    omega
  have exponents : left.exponent = right.exponent := by
    rcases Nat.lt_trichotomy left.exponent right.exponent with below | equal | above
    · exact absurd same (notBelow below)
    · exact equal
    · exact absurd same.symm (notBelow above)
  have significands : left.significand = right.significand := by
    change left.significand * 2 ^ left.exponent = right.significand * 2 ^ right.exponent at same
    rw [exponents] at same
    exact Nat.eq_of_mul_eq_mul_right (Nat.two_pow_pos _) same
  cases left
  cases right
  simp_all

/-! ## Rounding to magnitudes -/

/-- The magnitude is nearest to an exact size in units, and where another one is equally near, its
significand is even. -/
structure NearestTo (exact : ℚ) (magnitude : Magnitude) : Prop where
  near : ∀ other : Magnitude, |exact - magnitude.units| ≤ |exact - other.units|
  even : ∀ other : Magnitude, |exact - magnitude.units| = |exact - other.units| →
    other ≠ magnitude → magnitude.significand % 2 = 0

/-- The units that rounding gives, also beyond the greatest magnitude. -/
def roundedUnits (numerator denominator : Nat) : Nat :=
  roundedSignificand numerator denominator * 2 ^ exponentFor (numerator / denominator)

theorem units_of_ofQuotient? {numerator denominator : Nat} {magnitude : Magnitude}
    (rounded : ofQuotient? numerator denominator = some magnitude) :
    magnitude.units = roundedUnits numerator denominator ∧
      (roundedSignificand numerator denominator % 2 = 0 → magnitude.significand % 2 = 0) := by
  unfold ofQuotient? at rounded
  dsimp only at rounded
  split at rounded
  next carried =>
    split at rounded
    · cases rounded
      refine ⟨?_, fun _ => show 4503599627370496 % 2 = 0 by decide⟩
      change 4503599627370496 * 2 ^ (exponentFor (numerator / denominator) + 1) = _
      rw [roundedUnits, carried, Nat.pow_succ]
      ring
    · simp at rounded
  next notCarried =>
    split at rounded
    · cases rounded
      exact ⟨rfl, id⟩
    · simp at rounded

theorem ofQuotient?_eq_none_iff_roundedUnits (numerator denominator : Nat) {limit : Nat}
    (limitEq : limit + 1 = 2045) :
    ofQuotient? numerator denominator = none ↔
      9007199254740992 * 2 ^ (limit + 1) ≤ roundedUnits numerator denominator := by
  obtain ⟨bound, leading⟩ := roundedSignificand_bounds numerator denominator
  have powerMono : ∀ {low high : Nat}, low ≤ high → 2 ^ low ≤ 2 ^ high :=
    Nat.pow_le_pow_right (by decide)
  have powerLt : ∀ {low high : Nat}, low < high → 2 ^ low < 2 ^ high :=
    Nat.pow_lt_pow_right (by decide)
  unfold ofQuotient? roundedUnits
  dsimp only
  split
  next carried =>
    rw [carried]
    split
    next inRange =>
      simp only [reduceCtorEq, false_iff, Nat.not_le]
      exact Nat.mul_lt_mul_of_pos_left (powerLt (by omega)) (by decide)
    next outOfRange =>
      simp only [true_iff]
      exact Nat.mul_le_mul_left _ (powerMono (by omega))
  next notCarried =>
    have smaller : roundedSignificand numerator denominator < 9007199254740992 := by omega
    split
    next inRange =>
      simp only [reduceCtorEq, false_iff, Nat.not_le]
      calc roundedSignificand numerator denominator * 2 ^ exponentFor (numerator / denominator)
          ≤ roundedSignificand numerator denominator * 2 ^ (limit + 1) :=
            Nat.mul_le_mul_left _ (powerMono (by omega))
        _ < 9007199254740992 * 2 ^ (limit + 1) :=
            Nat.mul_lt_mul_of_pos_right smaller (Nat.two_pow_pos _)
    next outOfRange =>
      simp only [true_iff]
      calc 9007199254740992 * 2 ^ (limit + 1) = 4503599627370496 * 2 ^ (limit + 1 + 1) := by
            rw [Nat.pow_succ 2 (limit + 1)]
            ring
        _ ≤ roundedSignificand numerator denominator *
              2 ^ exponentFor (numerator / denominator) :=
            Nat.mul_le_mul (leading.resolve_left (by omega)) (powerMono (by omega))

/-- An exact size below the rounding place's least leading digit is rounded on the finest grid. -/
theorem leading_le_of_exponentFor_pos (numerator denominator : Nat)
    (scaled : exponentFor (numerator / denominator) ≠ 0) :
    4503599627370496 * 2 ^ exponentFor (numerator / denominator) * denominator ≤ numerator := by
  have logBound : (numerator / denominator).log2 =
      52 + exponentFor (numerator / denominator) := by
    unfold exponentFor at *
    omega
  have nonzero : numerator / denominator ≠ 0 := by
    intro isZero
    rw [isZero] at scaled
    exact scaled (by decide)
  have reached : 2 ^ (52 + exponentFor (numerator / denominator)) ≤ numerator / denominator := by
    rw [← logBound]
    exact Nat.log2_self_le nonzero
  rw [Nat.pow_add] at reached
  calc 4503599627370496 * 2 ^ exponentFor (numerator / denominator) * denominator
      ≤ numerator / denominator * denominator := Nat.mul_le_mul_right _ reached
    _ ≤ numerator := Nat.div_mul_le_self _ _

/-- The grid of `2 ^ exponent` holds a nearest magnitude: magnitudes off the grid lie below all
sizes that are rounded on it. -/
theorem roundedUnits_near (numerator : Nat) {denominator : Nat} (positive : 0 < denominator)
    (other : Magnitude) :
    |(numerator : ℚ) / denominator - roundedUnits numerator denominator| ≤
        |(numerator : ℚ) / denominator - other.units| ∧
      (|(numerator : ℚ) / denominator - roundedUnits numerator denominator| =
          |(numerator : ℚ) / denominator - other.units| →
        other.units ≠ roundedUnits numerator denominator →
        roundedSignificand numerator denominator % 2 = 0) := by
  set exponent := exponentFor (numerator / denominator) with exponentEq
  have powerPositive : (0 : ℚ) < 2 ^ exponent := by positivity
  have scaledPositive : 0 < denominator * Nat.pow 2 exponent :=
    Nat.mul_pos positive (Nat.two_pow_pos _)
  have nearest := roundHalfEven_nearest numerator scaledPositive
  -- Distances on the grid are distances of whole numbers, scaled.
  have scaled : ∀ count : Nat,
      |(numerator : ℚ) / denominator - (count * 2 ^ exponent : Nat)| =
        2 ^ exponent *
          |(numerator : ℚ) / (denominator * Nat.pow 2 exponent : Nat) - count| := by
    intro count
    have factored : (numerator : ℚ) / denominator - (count * 2 ^ exponent : Nat) =
        2 ^ exponent * ((numerator : ℚ) / (denominator * Nat.pow 2 exponent : Nat) - count) := by
      have denominatorPositive : (0 : ℚ) < denominator := by exact_mod_cast positive
      simp only [Nat.pow_eq]
      push_cast
      field_simp
    rw [factored, abs_mul, abs_of_pos powerPositive]
  have chosen : roundedUnits numerator denominator =
      roundHalfEven numerator (denominator * Nat.pow 2 exponent) * 2 ^ exponent := rfl
  rcases Nat.lt_or_ge other.exponent exponent with offGrid | onGrid
  · -- Off the grid, the least leading digit of the grid lies between the other size and this one.
    have reached := leading_le_of_exponentFor_pos numerator denominator (by omega)
    rw [← exponentEq] at reached
    have reachedRatio : ((4503599627370496 * 2 ^ exponent : Nat) : ℚ) ≤
        (numerator : ℚ) / denominator := by
      have denominatorPositive : (0 : ℚ) < denominator := by exact_mod_cast positive
      rw [le_div_iff₀ denominatorPositive]
      exact_mod_cast reached
    have otherBelow : (other.units : ℚ) < ((4503599627370496 * 2 ^ exponent : Nat) : ℚ) := by
      exact_mod_cast units_lt_of_exponent_lt offGrid
    have nearLeading := mul_le_mul_of_nonneg_left (nearest 4503599627370496).1 powerPositive.le
    rw [← scaled, ← scaled, ← chosen, abs_of_nonneg (sub_nonneg.mpr reachedRatio)] at nearLeading
    have strict : |(numerator : ℚ) / denominator - roundedUnits numerator denominator| <
        |(numerator : ℚ) / denominator - other.units| := by
      rw [abs_of_nonneg (by linarith : (0 : ℚ) ≤ numerator / denominator - other.units)]
      linarith
    exact ⟨strict.le, fun tie => absurd tie strict.ne⟩
  · obtain ⟨gap, gapEq⟩ := Nat.exists_eq_add_of_le onGrid
    have otherUnits : other.units = other.significand * 2 ^ gap * 2 ^ exponent := by
      change other.significand * 2 ^ other.exponent = _
      rw [gapEq, Nat.pow_add]
      ring
    obtain ⟨near, even⟩ := nearest (other.significand * 2 ^ gap)
    rw [otherUnits, chosen, scaled, scaled]
    refine ⟨mul_le_mul_of_nonneg_left near powerPositive.le, fun tie different => ?_⟩
    exact even (mul_left_cancel₀ powerPositive.ne' tie) (fun same => different (by rw [same]))

/-- A power of two with 53 more bits is reached from half a unit of the last place below it on. -/
theorem le_roundedUnits_iff (numerator : Nat) {denominator : Nat} (positive : 0 < denominator)
    (limit : Nat) :
    9007199254740992 * 2 ^ (limit + 1) ≤ roundedUnits numerator denominator ↔
      18014398509481983 * 2 ^ limit * denominator ≤ numerator := by
  obtain ⟨bound, leading⟩ := roundedSignificand_bounds numerator denominator
  have reached := leading_le_of_exponentFor_pos numerator denominator
  have powerMono : ∀ {low high : Nat}, low ≤ high → 2 ^ low ≤ 2 ^ high :=
    Nat.pow_le_pow_right (by decide)
  have limitPositive : 0 < 2 ^ limit := Nat.two_pow_pos _
  have doubled : 2 ^ (limit + 1) = 2 * 2 ^ limit := Nat.pow_succ'
  unfold roundedUnits
  unfold roundedSignificand at *
  generalize exponentFor (numerator / denominator) = exponent at *
  have scaledPositive : 0 < denominator * 2 ^ exponent :=
    Nat.mul_pos positive (Nat.two_pow_pos _)
  rcases Nat.lt_trichotomy exponent (limit + 1) with below | atLimit | beyond
  · have step : 2 ^ exponent ≤ 2 ^ limit := powerMono (by omega)
    have small : numerator < (9007199254740992 + 1) * (denominator * 2 ^ exponent) := by
      rw [← Nat.div_lt_iff_lt_mul scaledPositive]
      exact Nat.lt_succ_of_le (Nat.le_trans (floor_le_roundHalfEven _ _) bound)
    constructor
    · intro large
      have capped : roundHalfEven numerator (denominator * Nat.pow 2 exponent) * 2 ^ exponent ≤
          9007199254740992 * 2 ^ limit := Nat.mul_le_mul bound step
      omega
    · intro large
      have capped : (9007199254740992 + 1) * (denominator * 2 ^ exponent) ≤
          (9007199254740992 + 1) * (denominator * 2 ^ limit) :=
        Nat.mul_le_mul_left _ (Nat.mul_le_mul_left _ step)
      have spread : 18014398509481983 * 2 ^ limit * denominator =
          18014398509481983 * (denominator * 2 ^ limit) := by ring
      omega
  · have threshold : 9007199254740992 ≤
          roundHalfEven numerator (denominator * Nat.pow 2 exponent) ↔
        2 * 9007199254740992 * (denominator * Nat.pow 2 exponent) ≤
          2 * numerator + denominator * Nat.pow 2 exponent :=
      le_roundHalfEven_iff (by decide) numerator scaledPositive
    have powerEq : Nat.pow 2 exponent = 2 * 2 ^ limit := by
      rw [atLimit]
      exact doubled
    have spread : 18014398509481983 * 2 ^ limit * denominator =
        18014398509481983 * (denominator * 2 ^ limit) := by ring
    have scaledEq : denominator * Nat.pow 2 exponent = 2 * (denominator * 2 ^ limit) := by
      rw [powerEq]
      ring
    rw [spread, ← atLimit]
    constructor
    · intro large
      have counted := threshold.mp (Nat.le_of_mul_le_mul_right large (Nat.two_pow_pos exponent))
      omega
    · intro large
      exact Nat.mul_le_mul_right _ (threshold.mpr (by omega))
  · have step : 2 ^ (limit + 1 + 1) ≤ 2 ^ exponent := powerMono beyond
    rw [Nat.pow_succ' (n := limit + 1)] at step
    have leadingReached := leading.resolve_left (by omega)
    constructor
    · intro _
      have scaled := reached (by omega)
      have capped : 18014398509481983 * 2 ^ limit * denominator ≤
          4503599627370496 * 2 ^ exponent * denominator :=
        Nat.mul_le_mul_right _ (by omega)
      exact Nat.le_trans capped scaled
    · intro _
      have capped := Nat.mul_le_mul leadingReached step
      simp only [Nat.pow_eq] at *
      omega

/-- The least size in units that rounds beyond the greatest magnitude: half a unit of the last
place above it. -/
def overflowUnits : Nat := 18014398509481983 * 2 ^ 2044

theorem ofQuotient?_eq_none_iff (numerator : Nat) {denominator : Nat}
    (positive : 0 < denominator) :
    ofQuotient? numerator denominator = none ↔ overflowUnits * denominator ≤ numerator := by
  have range : 2044 + 1 = 2045 := rfl
  rw [ofQuotient?_eq_none_iff_roundedUnits numerator denominator range,
    le_roundedUnits_iff numerator positive, overflowUnits]

theorem nearestTo_of_ofQuotient? {numerator denominator : Nat} {magnitude : Magnitude}
    (positive : 0 < denominator)
    (rounded : ofQuotient? numerator denominator = some magnitude) :
    magnitude.NearestTo ((numerator : ℚ) / denominator) := by
  obtain ⟨unitsEq, evenness⟩ := units_of_ofQuotient? rounded
  constructor
  · intro other
    rw [unitsEq]
    exact (roundedUnits_near numerator positive other).1
  · intro other tie different
    rw [unitsEq] at tie
    refine evenness ((roundedUnits_near numerator positive other).2 tie ?_)
    intro sameUnits
    exact different (units_injective (sameUnits.trans unitsEq.symm))

/-! ## Nearest magnitudes are unique and in order -/

/-- A size is nearer to the higher of two numbers from the middle between them on. -/
theorem near_high_iff {exact low high : ℚ} (below : low < high) :
    |exact - high| ≤ |exact - low| ↔ low + high ≤ 2 * exact := by
  have squares : (exact - low) ^ 2 - (exact - high) ^ 2 =
      (high - low) * (2 * exact - (low + high)) := by ring
  rw [← sq_le_sq, ← sub_nonneg, squares, mul_nonneg_iff_of_pos_left (sub_pos.mpr below),
    sub_nonneg]

theorem near_low_iff {exact low high : ℚ} (below : low < high) :
    |exact - low| ≤ |exact - high| ↔ 2 * exact ≤ low + high := by
  have squares : (exact - high) ^ 2 - (exact - low) ^ 2 =
      (high - low) * (low + high - 2 * exact) := by ring
  rw [← sq_le_sq, ← sub_nonneg, squares, mul_nonneg_iff_of_pos_left (sub_pos.mpr below),
    sub_nonneg]

/-- Two magnitudes that are nearest to one size would both be even, and the first would have a
neighbour in between. -/
private theorem not_lt_of_nearestTo {exact : ℚ} {low high : Magnitude}
    (lowNear : low.NearestTo exact) (highNear : high.NearestTo exact) :
    ¬low.units < high.units := by
  intro below
  have different : high ≠ low := by
    intro same
    rw [same] at below
    exact Nat.lt_irrefl _ below
  have tie : |exact - low.units| = |exact - high.units| :=
    le_antisymm (lowNear.near high) (highNear.near low)
  have lowEven := lowNear.even high tie different
  have highEven := highNear.even low tie.symm different.symm
  have canonical := low.canonical
  let next : Magnitude := ⟨low.significand + 1, low.exponent, by
    unfold CanonicalParts at *
    omega⟩
  have nextUnits : next.units = low.units + 2 ^ low.exponent := Nat.succ_mul _ _
  have belowRat : (low.units : ℚ) < high.units := by exact_mod_cast below
  have middle : 2 * exact = low.units + high.units :=
    le_antisymm ((near_low_iff belowRat).mp tie.le) ((near_high_iff belowRat).mp tie.ge)
  rcases Nat.lt_or_ge next.units high.units with between | reached
  · have nextAbove : (low.units : ℚ) < next.units := by
      have step : low.units < next.units := by
        rw [nextUnits]
        exact Nat.lt_add_of_pos_right (Nat.two_pow_pos _)
      exact_mod_cast step
    have nextBelow : (next.units : ℚ) < high.units := by exact_mod_cast between
    have bound := (near_low_iff nextAbove).mp (lowNear.near next)
    linarith
  · have least := units_succ_le below
    have same : next = high := units_injective (by omega)
    rw [← same] at highEven
    change (low.significand + 1) % 2 = 0 at highEven
    omega

theorem NearestTo.unique {exact : ℚ} {left right : Magnitude} (leftNear : left.NearestTo exact)
    (rightNear : right.NearestTo exact) : left = right :=
  units_injective (Nat.le_antisymm (Nat.not_lt.mp (not_lt_of_nearestTo rightNear leftNear))
    (Nat.not_lt.mp (not_lt_of_nearestTo leftNear rightNear)))

theorem NearestTo.units_le {low high : ℚ} {lowRounded highRounded : Magnitude}
    (ordered : low ≤ high) (lowNear : lowRounded.NearestTo low)
    (highNear : highRounded.NearestTo high) : lowRounded.units ≤ highRounded.units := by
  by_contra inverted
  rw [Nat.not_le] at inverted
  have invertedRat : (highRounded.units : ℚ) < lowRounded.units := by exact_mod_cast inverted
  have lowBound := (near_high_iff invertedRat).mp (lowNear.near highRounded)
  have highBound := (near_low_iff invertedRat).mp (highNear.near lowRounded)
  have same : low = high := by linarith
  rw [same] at lowNear
  rw [lowNear.unique highNear] at inverted
  exact Nat.lt_irrefl _ inverted

theorem nearestTo_units (magnitude : Magnitude) : magnitude.NearestTo magnitude.units where
  near other := by
    rw [sub_self, abs_zero]
    exact abs_nonneg _
  even other tie different := by
    rw [sub_self, abs_zero, eq_comm, abs_eq_zero, sub_eq_zero] at tie
    exact absurd (units_injective (by exact_mod_cast tie.symm)) different

theorem units_lt_overflowUnits (magnitude : Magnitude) : magnitude.units < overflowUnits := by
  obtain ⟨significandBound, exponentBound, _⟩ := magnitude.canonical
  have powerMono : ∀ {low high : Nat}, low ≤ high → 2 ^ low ≤ 2 ^ high :=
    Nat.pow_le_pow_right (by decide)
  have below : ∀ power : Nat,
      9007199254740991 * 2 ^ (power + 1) < 18014398509481983 * 2 ^ power := by
    intro power
    have powerPositive : 0 < 2 ^ power := Nat.two_pow_pos _
    rw [Nat.pow_succ]
    omega
  calc magnitude.units = magnitude.significand * 2 ^ magnitude.exponent := rfl
    _ ≤ 9007199254740991 * 2 ^ (2044 + 1) :=
        Nat.mul_le_mul (by omega) (powerMono exponentBound)
    _ < overflowUnits := below 2044

end Magnitude

end Keypad
