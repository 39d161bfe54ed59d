import Keypad.Proofs.Number.Arithmetic

/-!
Contract: the decimals that the search for the fewest digits admits are those that are rounded to
the magnitude.

Owns:
- the neighbours of a magnitude and the gap below it;
- the sizes between the points halfway to the neighbours, and that these are the sizes to which the
  magnitude is nearest;
- that the fewest digits are rounded to their magnitude, and that no multiple of a greater power of
  ten is.

Does not own: layouts of digits, readers.
-/

namespace Keypad

namespace Magnitude

/-! ## Neighbours -/

/-- The quarters of the last place by which decimals below a magnitude may miss it: the gap below
the least significand of a binade is half as wide. -/
def quartersBelow (magnitude : Magnitude) : Nat :=
  if magnitude.significand = 4503599627370496 ∧ magnitude.exponent ≠ 0 then 1 else 2

/-- A magnitude below another misses it by the gap at least. -/
theorem units_add_gap_le {low high : Magnitude} (below : low.units < high.units) :
    2 * low.units + high.quartersBelow * 2 ^ high.exponent ≤ 2 * high.units := by
  have highUnits : high.units = high.significand * 2 ^ high.exponent := rfl
  rcases Nat.lt_or_ge low.exponent high.exponent with smaller | larger
  · have lowBound : 2 * low.units ≤ 9007199254740991 * 2 ^ high.exponent := by
      have scale : 2 * 2 ^ low.exponent ≤ 2 ^ high.exponent := by
        rw [← Nat.pow_succ']
        exact Nat.pow_le_pow_right (by decide) smaller
      have significandBound : low.significand ≤ 9007199254740991 :=
        Nat.le_of_lt_succ low.canonical.1
      calc 2 * low.units = low.significand * (2 * 2 ^ low.exponent) := by
            show 2 * (low.significand * 2 ^ low.exponent) = _
            ring
        _ ≤ 9007199254740991 * 2 ^ high.exponent := Nat.mul_le_mul significandBound scale
    have leading : 4503599627370496 ≤ high.significand :=
      high.canonical.2.2.resolve_left (by omega)
    have quarters : 9007199254740991 + high.quartersBelow ≤ 2 * high.significand := by
      unfold quartersBelow
      split <;> omega
    have scaled := Nat.mul_le_mul_right (2 ^ high.exponent) quarters
    rw [Nat.add_mul] at scaled
    rw [highUnits, ← Nat.mul_assoc]
    omega
  · obtain ⟨gap, gapEq⟩ := Nat.exists_eq_add_of_le larger
    have lowUnits : low.units = low.significand * 2 ^ gap * 2 ^ high.exponent := by
      show low.significand * 2 ^ low.exponent = _
      rw [gapEq, Nat.pow_add]
      ring
    rw [lowUnits, highUnits] at below
    have counted := Nat.lt_of_mul_lt_mul_right below
    have quarters :
        2 * (low.significand * 2 ^ gap) + high.quartersBelow ≤ 2 * high.significand := by
      unfold quartersBelow
      split <;> omega
    have scaled := Nat.mul_le_mul_right (2 ^ high.exponent) quarters
    rw [Nat.add_mul, Nat.mul_assoc] at scaled
    rw [lowUnits, highUnits, ← Nat.mul_assoc 2 high.significand]
    exact scaled

theorem exists_below {magnitude : Magnitude} (nonzero : magnitude.significand ≠ 0) :
    ∃ previous : Magnitude,
      2 * previous.units + magnitude.quartersBelow * 2 ^ magnitude.exponent =
        2 * magnitude.units := by
  obtain ⟨significandBound, exponentBound, _⟩ := magnitude.canonical
  have unitsEq : magnitude.units = magnitude.significand * 2 ^ magnitude.exponent := rfl
  unfold quartersBelow
  split
  next least =>
    obtain ⟨power, powerEq⟩ := Nat.exists_eq_add_one_of_ne_zero least.2
    obtain ⟨previous, previousUnits⟩ :=
      exists_units (show 9007199254740991 < 9007199254740992 by decide)
        (show power ≤ 2045 by omega)
    refine ⟨previous, ?_⟩
    rw [previousUnits, unitsEq, least.1, powerEq, Nat.pow_succ]
    ring
  next =>
    obtain ⟨previous, previousUnits⟩ :=
      exists_units (show magnitude.significand - 1 < 9007199254740992 by omega) exponentBound
    refine ⟨previous, ?_⟩
    obtain ⟨rest, restEq⟩ := Nat.exists_eq_add_one_of_ne_zero nonzero
    rw [previousUnits, unitsEq, restEq, Nat.add_sub_cancel]
    ring

/-- Above the greatest magnitude there is none; its gap ends where sizes begin to be infinite. -/
theorem exists_above (magnitude : Magnitude) :
    (∃ next : Magnitude, next.units = magnitude.units + 2 ^ magnitude.exponent) ∨
      2 * overflowUnits = 2 * magnitude.units + 2 ^ magnitude.exponent ∧
        magnitude.significand % 2 = 1 := by
  obtain ⟨significandBound, exponentBound, _⟩ := magnitude.canonical
  have unitsEq : magnitude.units = magnitude.significand * 2 ^ magnitude.exponent := rfl
  rcases Nat.lt_or_ge (magnitude.significand + 1) 9007199254740992 with short | full
  · obtain ⟨next, nextUnits⟩ := exists_units short exponentBound
    exact .inl ⟨next, by rw [nextUnits, unitsEq, Nat.succ_mul]⟩
  · have significandEq : magnitude.significand = 9007199254740991 := by omega
    rcases Nat.lt_or_ge magnitude.exponent 2045 with inRange | greatest
    · obtain ⟨next, nextUnits⟩ :=
        exists_units (show 4503599627370496 < 9007199254740992 by decide)
          (show magnitude.exponent + 1 ≤ 2045 by omega)
      refine .inl ⟨next, ?_⟩
      rw [nextUnits, unitsEq, significandEq, Nat.pow_succ]
      ring
    · have exponentEq : magnitude.exponent = 2044 + 1 := by omega
      refine .inr ⟨?_, by rw [significandEq]⟩
      rw [unitsEq, significandEq, exponentEq, overflowUnits]
      generalize 2044 = limit
      rw [Nat.pow_succ]
      ring

/-! ## Between the halfway points -/

/-- A size in units between the points halfway to the neighbours; at these points, the significand
is even. -/
structure Reaches (magnitude : Magnitude) (exact : ℚ) : Prop where
  low : magnitude.units - magnitude.quartersBelow * (2 ^ magnitude.exponent / 4) ≤ exact
  high : exact ≤ magnitude.units + 2 ^ magnitude.exponent / 2
  even : exact = magnitude.units - magnitude.quartersBelow * (2 ^ magnitude.exponent / 4) ∨
    exact = magnitude.units + 2 ^ magnitude.exponent / 2 → magnitude.significand % 2 = 0

section Reaches

variable {magnitude : Magnitude} {exact : ℚ}

/-- The halfway points belong to the even significand. -/
theorem reaches_iff : magnitude.Reaches exact ↔
    if magnitude.significand % 2 = 0 then
      magnitude.units - magnitude.quartersBelow * (2 ^ magnitude.exponent / 4) ≤ exact ∧
        exact ≤ magnitude.units + 2 ^ magnitude.exponent / 2
    else
      magnitude.units - magnitude.quartersBelow * (2 ^ magnitude.exponent / 4) < exact ∧
        exact < magnitude.units + 2 ^ magnitude.exponent / 2 := by
  split_ifs with even
  · exact ⟨fun reaches => ⟨reaches.low, reaches.high⟩, fun ends => ⟨ends.1, ends.2, fun _ => even⟩⟩
  · constructor
    · intro reaches
      exact ⟨lt_of_le_of_ne reaches.low fun atLow => even (reaches.even (.inl atLow.symm)),
        lt_of_le_of_ne reaches.high fun atHigh => even (reaches.even (.inr atHigh))⟩
    · rintro ⟨low, high⟩
      exact ⟨low.le, high.le, fun atEnd => absurd atEnd (not_or_intro low.ne' high.ne)⟩

/-- A magnitude is nearest to the sizes that it reaches. -/
theorem Reaches.nearestTo (reaches : magnitude.Reaches exact) : magnitude.NearestTo exact := by
  have closer : ∀ other : Magnitude, other ≠ magnitude →
      |exact - magnitude.units| ≤ |exact - other.units| ∧
        (|exact - magnitude.units| = |exact - other.units| → magnitude.significand % 2 = 0) := by
    intro other different
    have low := reaches.low
    have high := reaches.high
    rcases Nat.lt_trichotomy other.units magnitude.units with below | same | above
    · have gap : 2 * (other.units : ℚ) + magnitude.quartersBelow * 2 ^ magnitude.exponent ≤
          2 * magnitude.units := by exact_mod_cast units_add_gap_le below
      have belowRat : (other.units : ℚ) < magnitude.units := by exact_mod_cast below
      rw [near_high_iff belowRat]
      refine ⟨by linarith, fun tie => reaches.even (.inl ?_)⟩
      have middle := (near_low_iff belowRat).mp tie.ge
      linarith
    · exact absurd (units_injective same) different
    · have gap : (magnitude.units : ℚ) + 2 ^ magnitude.exponent ≤ other.units := by
        exact_mod_cast units_succ_le above
      have aboveRat : (magnitude.units : ℚ) < other.units := by exact_mod_cast above
      rw [near_low_iff aboveRat]
      refine ⟨by linarith, fun tie => reaches.even (.inr ?_)⟩
      have middle := (near_high_iff aboveRat).mp tie.ge
      linarith
  constructor
  · intro other
    by_cases same : other = magnitude
    · rw [same]
    · exact (closer other same).1
  · intro other tie different
    exact (closer other different).2 tie

theorem Reaches.lt_overflowUnits (reaches : magnitude.Reaches exact) : exact < overflowUnits := by
  have high := reaches.high
  have powerPositive : (0 : ℚ) < 2 ^ magnitude.exponent := by positivity
  rcases exists_above magnitude with ⟨next, nextUnits⟩ | ⟨limit, odd⟩
  · have nextEq : (next.units : ℚ) = magnitude.units + 2 ^ magnitude.exponent := by
      exact_mod_cast nextUnits
    have inRange : (next.units : ℚ) < overflowUnits := by exact_mod_cast units_lt_overflowUnits next
    linarith
  · have limitRat : 2 * (overflowUnits : ℚ) = 2 * magnitude.units + 2 ^ magnitude.exponent := by
      exact_mod_cast limit
    refine lt_of_le_of_ne (by linarith) fun atLimit => ?_
    have even := reaches.even (.inr (by linarith))
    omega

/-- A magnitude other than zero reaches the finite sizes that it is nearest to. -/
theorem NearestTo.reaches (near : magnitude.NearestTo exact)
    (nonzero : magnitude.significand ≠ 0) (inRange : exact < overflowUnits) :
    magnitude.Reaches exact := by
  have powerPositive : (0 : ℚ) < 2 ^ magnitude.exponent := by positivity
  have quartersPositive : (0 : ℚ) < magnitude.quartersBelow := by
    unfold quartersBelow
    split <;> norm_num
  obtain ⟨previous, previousUnits⟩ := exists_below nonzero
  have previousEq : 2 * (previous.units : ℚ) + magnitude.quartersBelow * 2 ^ magnitude.exponent =
      2 * magnitude.units := by exact_mod_cast previousUnits
  have gapPositive : (0 : ℚ) < magnitude.quartersBelow * 2 ^ magnitude.exponent :=
    mul_pos quartersPositive powerPositive
  have previousBelow : (previous.units : ℚ) < magnitude.units := by linarith
  have low := (near_high_iff previousBelow).mp (near.near previous)
  have evenLow : exact = magnitude.units - magnitude.quartersBelow * (2 ^ magnitude.exponent / 4) →
      magnitude.significand % 2 = 0 := by
    intro atLow
    refine near.even previous (le_antisymm (near.near previous) ?_) ?_
    · rw [near_low_iff previousBelow]
      linarith
    · rintro rfl
      exact lt_irrefl _ previousBelow
  rcases exists_above magnitude with ⟨next, nextUnits⟩ | ⟨limit, odd⟩
  · have nextEq : (next.units : ℚ) = magnitude.units + 2 ^ magnitude.exponent := by
      exact_mod_cast nextUnits
    have nextAbove : (magnitude.units : ℚ) < next.units := by linarith
    have high := (near_low_iff nextAbove).mp (near.near next)
    refine ⟨by linarith, by linarith, fun atEnd => atEnd.elim evenLow fun atHigh => ?_⟩
    refine near.even next (le_antisymm (near.near next) ?_) ?_
    · rw [near_high_iff nextAbove]
      linarith
    · rintro rfl
      exact lt_irrefl _ nextAbove
  · have limitRat : 2 * (overflowUnits : ℚ) = 2 * magnitude.units + 2 ^ magnitude.exponent := by
      exact_mod_cast limit
    refine ⟨by linarith, by linarith, fun atEnd => atEnd.elim evenLow fun atHigh => ?_⟩
    linarith

end Reaches

end Magnitude

namespace DecimalGrid

open Magnitude (unitsPerOne)

variable {magnitude : Magnitude}

theorem low_around_eq (exponent : Int) (nonzero : magnitude.significand ≠ 0) :
    ((around magnitude exponent).low : ℚ) = perUnit magnitude exponent *
      (magnitude.units - magnitude.quartersBelow * (2 ^ magnitude.exponent / 4)) := by
  have lowEq : (around magnitude exponent).low =
      (4 * magnitude.significand - magnitude.quartersBelow) * quarter magnitude exponent := rfl
  have within : magnitude.quartersBelow ≤ 4 * magnitude.significand := by
    unfold Magnitude.quartersBelow
    split <;> omega
  have unitsEq : (magnitude.units : ℚ) = magnitude.significand * 2 ^ magnitude.exponent := by
    exact_mod_cast rfl
  rw [lowEq, Nat.cast_mul, Nat.cast_sub within, quarter_eq, unitsEq]
  push_cast
  ring

/-- A grid admits a coefficient when the magnitude reaches its multiple. -/
theorem admits_iff {exponent : Int} (nonzero : magnitude.significand ≠ 0) (coefficient : Nat) :
    (around magnitude exponent).admits coefficient = true ↔
      magnitude.Reaches (coefficient * 10 ^ exponent * unitsPerOne) := by
  have positive := perUnit_pos magnitude exponent
  have multipleEq : ((coefficient * (around magnitude exponent).step : Nat) : ℚ) =
      perUnit magnitude exponent * (coefficient * 10 ^ exponent * unitsPerOne) := by
    rw [Nat.cast_mul, step_around]
    ring
  have lowEq := low_around_eq exponent nonzero
  have highEq := high_around_eq magnitude exponent
  have endsEq : (around magnitude exponent).endsIncluded = (magnitude.significand % 2 == 0) := rfl
  rw [Magnitude.reaches_iff]
  unfold admits
  rw [endsEq]
  simp only [beq_iff_eq]
  split_ifs
  · simp only [Bool.and_eq_true, decide_eq_true_eq]
    rw [← @Nat.cast_le ℚ, ← @Nat.cast_le ℚ, multipleEq, lowEq, highEq,
      mul_le_mul_iff_of_pos_left positive, mul_le_mul_iff_of_pos_left positive]
  · simp only [Bool.and_eq_true, decide_eq_true_eq]
    rw [← @Nat.cast_lt ℚ, ← @Nat.cast_lt ℚ, multipleEq, lowEq, highEq,
      mul_lt_mul_iff_of_pos_left positive, mul_lt_mul_iff_of_pos_left positive]

end DecimalGrid

namespace Binary64

open DecimalGrid

variable {magnitude : Magnitude}

/-- The decimals that a grid admits are those that are rounded to the magnitude. -/
theorem isNearest_iff_admits (negative : Bool) (nonzero : magnitude.significand ≠ 0)
    (coefficient : Nat) (exponent : Int) :
    IsNearest negative (coefficient * 10 ^ exponent) (.finite negative magnitude) ↔
      (around magnitude exponent).admits coefficient = true := by
  rw [admits_iff nonzero]
  constructor
  · intro nearest
    cases nearest with
    | finite inRange near => exact near.reaches nonzero inRange
  · intro reaches
    exact .finite reaches.lt_overflowUnits reaches.nearestTo

/-- The fewest digits are rounded to their magnitude. -/
theorem isNearest_shortest (negative : Bool) (rule : HalfwayRule)
    (nonzero : magnitude.significand ≠ 0) :
    IsNearest negative
      ((magnitude.shortest rule).coefficient * 10 ^ (magnitude.shortest rule).exponent)
      (.finite negative magnitude) :=
  (isNearest_iff_admits negative nonzero _ _).mpr (Magnitude.admits_shortest rule nonzero)

/-- A decimal that is rounded to a magnitude has no greater power of ten than its fewest digits. -/
theorem IsNearest.exponent_le_shortest {negative : Bool} {coefficient : Nat} {exponent : Int}
    (rule : HalfwayRule) (nonzero : magnitude.significand ≠ 0)
    (nearest : IsNearest negative (coefficient * 10 ^ exponent) (.finite negative magnitude)) :
    exponent ≤ (magnitude.shortest rule).exponent :=
  Magnitude.exponent_le_shortest_of_admits rule nonzero
    ((isNearest_iff_admits negative nonzero _ _).mp nearest)

end Binary64

end Keypad
