import Keypad.Number.Shortest
import Keypad.Proofs.Number.CorrectRounding

/-!
Contract: what the search for the fewest digits finds.

Owns:
- grids in sizes: a grid's step, the magnitude and the upper end of what reads back;
- that a grid no wider than half a unit of the last place holds a multiple that reads back, and that
  the search therefore stops at one;
- bounds of the digits, of their power of ten and of the number they denote.

Does not own: layouts of digits, readers.
-/

namespace Keypad

namespace DecimalGrid

open Magnitude (unitsPerOne)

/-- The factor by which a grid counts: one unit of size counts as this many. -/
def perUnit (magnitude : Magnitude) (exponent : Int) : ℚ :=
  4 * 2 ^ (1074 - magnitude.exponent) * 10 ^ (-exponent).toNat / unitsPerOne

theorem unitsPerOne_pos_rat : (0 : ℚ) < unitsPerOne := by
  exact_mod_cast Magnitude.unitsPerOne_pos

theorem perUnit_pos (magnitude : Magnitude) (exponent : Int) : 0 < perUnit magnitude exponent := by
  unfold perUnit
  exact div_pos (by positivity) unitsPerOne_pos_rat

theorem step_around (magnitude : Magnitude) (exponent : Int) :
    ((around magnitude exponent).step : ℚ) =
      perUnit magnitude exponent * (10 ^ exponent * unitsPerOne) := by
  have unitsPositive := unitsPerOne_pos_rat
  have stepEq : (around magnitude exponent).step =
      4 * 2 ^ (1074 - magnitude.exponent) * 10 ^ exponent.toNat := rfl
  rw [stepEq, ten_zpow]
  unfold perUnit
  generalize (unitsPerOne : ℚ) = units at *
  push_cast
  field_simp

theorem unitsPerOne_eq : unitsPerOne = 2 ^ 1074 := by decide +kernel

theorem power_mul_unitsPerOne (exponent : Nat) :
    2 ^ (exponent - 1074) * unitsPerOne = 2 ^ (1074 - exponent) * 2 ^ exponent := by
  have exponents : ∀ place : Nat, exponent - place + place = place - exponent + exponent := by
    omega
  have balanced : ∀ place : Nat, unitsPerOne = 2 ^ place →
      2 ^ (exponent - place) * unitsPerOne = 2 ^ (place - exponent) * 2 ^ exponent := by
    intro place unitsEq
    rw [unitsEq, ← Nat.pow_add, ← Nat.pow_add, exponents]
  exact balanced 1074 unitsPerOne_eq

/-- A quarter of the last place, as the grid counts it. -/
def quarter (magnitude : Magnitude) (exponent : Int) : Nat :=
  2 ^ (magnitude.exponent - 1074) * 10 ^ (-exponent).toNat

theorem quarter_eq (magnitude : Magnitude) (exponent : Int) :
    (quarter magnitude exponent : ℚ) =
      perUnit magnitude exponent * (2 ^ magnitude.exponent / 4) := by
  have unitsPositive := unitsPerOne_pos_rat
  have powers : (2 : ℚ) ^ (magnitude.exponent - 1074) * unitsPerOne =
      2 ^ (1074 - magnitude.exponent) * 2 ^ magnitude.exponent := by
    exact_mod_cast power_mul_unitsPerOne magnitude.exponent
  unfold perUnit quarter
  generalize (unitsPerOne : ℚ) = units at *
  push_cast
  rw [div_mul_eq_mul_div, eq_div_iff unitsPositive.ne', mul_right_comm, powers]
  ring

theorem quarter_pos (magnitude : Magnitude) (exponent : Int) : 0 < quarter magnitude exponent :=
  Nat.mul_pos (Nat.two_pow_pos _) (Nat.pow_pos (by decide))

section Around

variable {magnitude : Magnitude} {exponent : Int}

theorem point_around (magnitude : Magnitude) (exponent : Int) :
    (around magnitude exponent).point = 4 * magnitude.significand * quarter magnitude exponent := rfl

theorem high_around (magnitude : Magnitude) (exponent : Int) :
    (around magnitude exponent).high =
      (around magnitude exponent).point + 2 * quarter magnitude exponent := Nat.add_mul _ _ _

theorem high_around_eq (magnitude : Magnitude) (exponent : Int) :
    ((around magnitude exponent).high : ℚ) =
      perUnit magnitude exponent * (magnitude.units + 2 ^ magnitude.exponent / 2) := by
  have unitsEq : (magnitude.units : ℚ) = magnitude.significand * 2 ^ magnitude.exponent := by
    exact_mod_cast rfl
  rw [high_around, point_around, unitsEq]
  push_cast
  rw [quarter_eq]
  ring

theorem low_around (exponent : Int) (nonzero : magnitude.significand ≠ 0) :
    0 < (around magnitude exponent).low ∧
      (around magnitude exponent).low < (around magnitude exponent).point := by
  have quarterPositive := quarter_pos magnitude exponent
  have lowEq : (around magnitude exponent).low =
      (4 * magnitude.significand -
          if magnitude.significand = 4503599627370496 ∧ magnitude.exponent ≠ 0 then 1 else 2) *
        quarter magnitude exponent := rfl
  rw [lowEq, point_around]
  constructor
  · refine Nat.mul_pos ?_ quarterPositive
    split <;> omega
  · refine Nat.mul_lt_mul_of_pos_right ?_ quarterPositive
    split <;> omega

theorem step_around_pos (magnitude : Magnitude) (exponent : Int) :
    0 < (around magnitude exponent).step :=
  Nat.mul_pos (Nat.mul_pos (by decide) (Nat.two_pow_pos _)) (Nat.pow_pos (by decide))

/-- A multiple that reads back is not zero and not above the upper end. -/
theorem bounds_of_admits {coefficient : Nat} (nonzero : magnitude.significand ≠ 0)
    (admitted : (around magnitude exponent).admits coefficient = true) :
    0 < coefficient ∧
      coefficient * (around magnitude exponent).step ≤ (around magnitude exponent).high := by
  have lowPositive := (low_around exponent nonzero).1
  unfold admits at admitted
  dsimp only at admitted
  have within : (around magnitude exponent).low ≤ coefficient * (around magnitude exponent).step ∧
      coefficient * (around magnitude exponent).step ≤ (around magnitude exponent).high := by
    split at admitted <;> simp only [Bool.and_eq_true, decide_eq_true_eq] at admitted <;> omega
  refine ⟨Nat.pos_of_ne_zero ?_, within.2⟩
  intro isZero
  rw [isZero, Nat.zero_mul] at within
  omega

theorem nearer_eq (grid : DecimalGrid) (rule : HalfwayRule) :
    grid.nearer rule = grid.floor ∨ grid.nearer rule = grid.floor + 1 := by
  unfold nearer
  dsimp only
  cases rule <;> dsimp only <;> split_ifs <;> simp

theorem admits_of_choice? {grid : DecimalGrid} {rule : HalfwayRule} {coefficient : Nat}
    (chosen : grid.choice? rule = some coefficient) : grid.admits coefficient = true := by
  unfold choice? at chosen
  split at chosen
  next floorAdmitted nextAdmitted =>
    cases chosen
    rcases nearer_eq grid rule with isFloor | isNext
    · rw [isFloor]
      exact floorAdmitted
    · rw [isNext]
      exact nextAdmitted
  next floorAdmitted _ =>
    cases chosen
    exact floorAdmitted
  next _ nextAdmitted =>
    cases chosen
    exact nextAdmitted
  · simp at chosen

/-- There is a choice on a grid when one of the two multiples around the magnitude reads back. -/
theorem choice?_isSome_iff (grid : DecimalGrid) (rule : HalfwayRule) :
    (grid.choice? rule).isSome = true ↔
      grid.admits grid.floor = true ∨ grid.admits (grid.floor + 1) = true := by
  unfold choice?
  cases grid.admits grid.floor <;> cases grid.admits (grid.floor + 1) <;> simp

theorem floor_mul_step_le (grid : DecimalGrid) : grid.floor * grid.step ≤ grid.point :=
  Nat.div_mul_le_self _ _

theorem point_lt_next_mul_step {grid : DecimalGrid} (positive : 0 < grid.step) :
    grid.point < (grid.floor + 1) * grid.step := by
  rw [Nat.mul_comm]
  exact Nat.lt_mul_div_succ grid.point positive

/-- A grid no wider than half a unit of the last place holds a multiple that reads back. -/
theorem choice?_isSome_of_step_le (rule : HalfwayRule) (nonzero : magnitude.significand ≠ 0)
    (fine : (around magnitude exponent).step ≤ 2 * quarter magnitude exponent) :
    ((around magnitude exponent).choice? rule).isSome := by
  obtain ⟨_, lowBelow⟩ := low_around exponent nonzero
  have highEq := high_around magnitude exponent
  have floorBelow := floor_mul_step_le (around magnitude exponent)
  have nextAbove := point_lt_next_mul_step (step_around_pos magnitude exponent)
  have quarterPositive := quarter_pos magnitude exponent
  rw [choice?_isSome_iff]
  generalize around magnitude exponent = grid at *
  have nextEq : (grid.floor + 1) * grid.step = grid.floor * grid.step + grid.step :=
    Nat.succ_mul _ _
  unfold admits
  dsimp only
  rcases Nat.eq_or_lt_of_le floorBelow with onGrid | between
  · left
    split_ifs <;> simp only [Bool.and_eq_true, decide_eq_true_eq] <;> omega
  · right
    split_ifs <;> simp only [Bool.and_eq_true, decide_eq_true_eq] <;> omega

/-- If any multiple on a grid reads back, one of the two around the magnitude does. -/
theorem choice?_isSome_of_admits (rule : HalfwayRule) (nonzero : magnitude.significand ≠ 0)
    {coefficient : Nat} (admitted : (around magnitude exponent).admits coefficient = true) :
    ((around magnitude exponent).choice? rule).isSome := by
  obtain ⟨_, lowBelow⟩ := low_around exponent nonzero
  have highEq := high_around magnitude exponent
  have floorBelow := floor_mul_step_le (around magnitude exponent)
  have nextAbove := point_lt_next_mul_step (step_around_pos magnitude exponent)
  have quarterPositive := quarter_pos magnitude exponent
  rw [choice?_isSome_iff]
  generalize around magnitude exponent = grid at *
  unfold admits at *
  dsimp only at *
  rcases Nat.lt_or_ge grid.floor coefficient with above | below
  · right
    have ordered : (grid.floor + 1) * grid.step ≤ coefficient * grid.step :=
      Nat.mul_le_mul_right _ above
    split_ifs at admitted ⊢ <;> simp only [Bool.and_eq_true, decide_eq_true_eq] at * <;> omega
  · left
    have ordered : coefficient * grid.step ≤ grid.floor * grid.step :=
      Nat.mul_le_mul_right _ below
    split_ifs at admitted ⊢ <;> simp only [Bool.and_eq_true, decide_eq_true_eq] at * <;> omega

end Around

end DecimalGrid

namespace Magnitude

open DecimalGrid

/-- A search that meets a grid with a choice stops at the first one. -/
theorem searchGrids_eq (magnitude : Magnitude) (rule : HalfwayRule) (steps : Nat) (start : Int)
    (found : ∃ depth < steps, ((around magnitude (start - depth)).choice? rule).isSome) :
    ∃ depth coefficient : Nat, depth < steps ∧
      searchGrids magnitude rule steps start = ⟨coefficient, start - depth⟩ ∧
      (around magnitude (start - depth)).choice? rule = some coefficient ∧
      ∀ earlier < depth, (around magnitude (start - earlier)).choice? rule = none := by
  induction steps generalizing start with
  | zero =>
      obtain ⟨depth, below, _⟩ := found
      omega
  | succ steps inductionHypothesis =>
      unfold searchGrids
      cases first : (around magnitude start).choice? rule with
      | some coefficient =>
          refine ⟨0, coefficient, by omega, ?_, ?_, fun earlier below => by omega⟩
          · simp
          · simpa using first
      | none =>
          obtain ⟨depth, below, isSome⟩ := found
          have notFirst : depth ≠ 0 := by
            intro isFirst
            rw [isFirst, Nat.cast_zero, sub_zero, first] at isSome
            cases isSome
          have shifted : ∀ later : Nat, start - 1 - later = start - (later + 1 : Nat) := by
            intro later
            push_cast
            ring
          have foundLater : ∃ later < steps,
              ((around magnitude (start - 1 - later)).choice? rule).isSome := by
            refine ⟨depth - 1, by omega, ?_⟩
            rw [shifted, Nat.sub_add_cancel (by omega)]
            exact isSome
          obtain ⟨later, coefficient, laterBelow, resultEq, chosen, before⟩ :=
            inductionHypothesis (start - 1) foundLater
          refine ⟨later + 1, coefficient, by omega, ?_, ?_, ?_⟩
          · rw [← shifted]
            exact resultEq
          · rw [← shifted]
            exact chosen
          · intro earlier earlierBelow
            cases earlier with
            | zero => simpa using first
            | succ earlier =>
                rw [← shifted]
                exact before earlier (by omega)

/-! ## Where the search starts and ends -/

private theorem two_pow_le_ten_pow (bits : Nat) : 2 ^ bits ≤ 10 ^ (28 * bits / 93 + 1) := by
  rw [← Nat.pow_le_pow_iff_left (show 93 ≠ 0 by decide)]
  calc (2 ^ bits) ^ 93 = (2 ^ 93) ^ bits := by rw [← Nat.pow_mul, ← Nat.pow_mul, Nat.mul_comm]
    _ ≤ (10 ^ 28) ^ bits := Nat.pow_le_pow_left (by decide) _
    _ = 10 ^ (28 * bits) := (Nat.pow_mul ..).symm
    _ ≤ 10 ^ ((28 * bits / 93 + 1) * 93) := Nat.pow_le_pow_right (by decide) (by omega)
    _ = (10 ^ (28 * bits / 93 + 1)) ^ 93 := Nat.pow_mul ..

private theorem ten_pow_le_two_pow (bits : Nat) : 10 ^ (3 * bits / 10) ≤ 2 ^ bits := by
  rw [← Nat.pow_le_pow_iff_left (show 10 ≠ 0 by decide)]
  calc (10 ^ (3 * bits / 10)) ^ 10 = 10 ^ (3 * bits / 10 * 10) := (Nat.pow_mul ..).symm
    _ ≤ 10 ^ (3 * bits) := Nat.pow_le_pow_right (by decide) (by omega)
    _ = (10 ^ 3) ^ bits := Nat.pow_mul ..
    _ ≤ (2 ^ 10) ^ bits := Nat.pow_le_pow_left (by decide) _
    _ = (2 ^ bits) ^ 10 := by rw [← Nat.pow_mul, ← Nat.pow_mul, Nat.mul_comm]

/-- The search starts above every multiple that reads back. -/
theorem high_lt_coarsest (magnitude : Magnitude) :
    (magnitude.units : ℚ) + 2 ^ magnitude.exponent / 2 <
      10 ^ magnitude.coarsestExponent * unitsPerOne := by
  set bits := magnitude.significand.log2 + magnitude.exponent + 2 with bitsEq
  have above : magnitude.units + 2 ^ magnitude.exponent ≤ 2 ^ bits := by
    calc magnitude.units + 2 ^ magnitude.exponent
        = (magnitude.significand + 1) * 2 ^ magnitude.exponent := (Nat.succ_mul _ _).symm
      _ ≤ 2 ^ (magnitude.significand.log2 + 1) * 2 ^ magnitude.exponent :=
          Nat.mul_le_mul_right _ Nat.lt_log2_self
      _ = 2 ^ (magnitude.significand.log2 + 1 + magnitude.exponent) := (Nat.pow_add ..).symm
      _ ≤ 2 ^ bits := Nat.pow_le_pow_right (by decide) (by omega)
  have highBound : (magnitude.units : ℚ) + 2 ^ magnitude.exponent / 2 < (2 ^ bits : Nat) := by
    have aboveRat : (magnitude.units : ℚ) + 2 ^ magnitude.exponent ≤ (2 ^ bits : Nat) := by
      exact_mod_cast above
    have powerPositive : (0 : ℚ) < 2 ^ magnitude.exponent := by positivity
    linarith
  apply lt_of_lt_of_le highBound
  have balanced := power_mul_unitsPerOne bits
  unfold coarsestExponent
  rw [← bitsEq]
  dsimp only
  split
  next large =>
    have enough : 2 ^ bits ≤ 10 ^ (28 * (bits - 1074) / 93 + 1) * unitsPerOne := by
      have unscaled : 2 ^ (1074 - bits) = 1 := by
        rw [Nat.sub_eq_zero_of_le large, Nat.pow_zero]
      rw [unscaled, Nat.one_mul] at balanced
      rw [← balanced]
      exact Nat.mul_le_mul_right _ (two_pow_le_ten_pow _)
    rw [zpow_natCast]
    exact_mod_cast enough
  next small =>
    have enough : 2 ^ bits * 10 ^ (3 * (1074 - bits) / 10) ≤ unitsPerOne := by
      have unscaled : 2 ^ (bits - 1074) = 1 := by
        rw [Nat.sub_eq_zero_of_le (show bits ≤ 1074 by omega), Nat.pow_zero]
      rw [unscaled, Nat.one_mul] at balanced
      rw [balanced, Nat.mul_comm]
      exact Nat.mul_le_mul_right _ (ten_pow_le_two_pow _)
    have powerPositive : (0 : ℚ) < 10 ^ (3 * (1074 - bits) / 10) := by positivity
    rw [zpow_neg, zpow_natCast, ← div_eq_inv_mul, le_div_iff₀ powerPositive]
    exact_mod_cast enough

theorem coarsestExponent_bounds (magnitude : Magnitude) :
    -1074 < magnitude.coarsestExponent ∧ magnitude.coarsestExponent ≤ 309 := by
  obtain ⟨significandBound, exponentBound, _⟩ := magnitude.canonical
  have logBound : magnitude.significand.log2 ≤ 52 := by
    by_cases isZero : magnitude.significand = 0
    · rw [isZero]
      decide
    · have below := (Nat.log2_lt isZero).mpr (show magnitude.significand < 2 ^ 53 by omega)
      omega
  unfold coarsestExponent
  dsimp only
  split <;> omega

/-- Whether a grid is no wider than half a unit of the last place, in sizes. -/
theorem step_le_twice_quarter_iff (magnitude : Magnitude) (exponent : Int) :
    (around magnitude exponent).step ≤ 2 * quarter magnitude exponent ↔
      (10 : ℚ) ^ exponent * unitsPerOne ≤ 2 ^ magnitude.exponent / 2 := by
  have positive := perUnit_pos magnitude exponent
  have cast : (around magnitude exponent).step ≤ 2 * quarter magnitude exponent ↔
      ((around magnitude exponent).step : ℚ) ≤ 2 * quarter magnitude exponent := by
    exact_mod_cast Iff.rfl
  have doubled : (2 : ℚ) * quarter magnitude exponent =
      perUnit magnitude exponent * (2 ^ magnitude.exponent / 2) := by
    rw [quarter_eq]
    ring
  rw [cast, step_around, doubled, mul_le_mul_iff_of_pos_left positive]

/-- A multiple that reads back lies at most half a unit of the last place above the magnitude. -/
theorem size_le_of_admits {magnitude : Magnitude} {exponent : Int} {coefficient : Nat}
    (nonzero : magnitude.significand ≠ 0)
    (admitted : (around magnitude exponent).admits coefficient = true) :
    (coefficient : ℚ) * 10 ^ exponent * unitsPerOne ≤
      magnitude.units + 2 ^ magnitude.exponent / 2 := by
  have positive := perUnit_pos magnitude exponent
  have within := (bounds_of_admits nonzero admitted).2
  have withinRat : (coefficient : ℚ) * (around magnitude exponent).step ≤
      (around magnitude exponent).high := by exact_mod_cast within
  rw [step_around, high_around_eq] at withinRat
  refine le_of_mul_le_mul_left ?_ positive
  calc perUnit magnitude exponent * (coefficient * 10 ^ exponent * unitsPerOne)
      = coefficient * (perUnit magnitude exponent * (10 ^ exponent * unitsPerOne)) := by ring
    _ ≤ _ := withinRat

/-- The search succeeds: the fewest digits are the choice on the first grid that has one. -/
theorem exists_shortest {magnitude : Magnitude} (rule : HalfwayRule)
    (nonzero : magnitude.significand ≠ 0) :
    ∃ depth coefficient : Nat, (depth : ℤ) < magnitude.coarsestExponent + 1075 ∧
      magnitude.shortest rule = ⟨coefficient, magnitude.coarsestExponent - depth⟩ ∧
      (around magnitude (magnitude.coarsestExponent - depth)).choice? rule = some coefficient ∧
      ∀ earlier < depth,
        (around magnitude (magnitude.coarsestExponent - earlier)).choice? rule = none := by
  obtain ⟨lowest, highest⟩ := coarsestExponent_bounds magnitude
  have unitsPositive : (0 : ℚ) < unitsPerOne := by exact_mod_cast unitsPerOne_pos
  have finest : ((around magnitude (-1074)).choice? rule).isSome := by
    apply choice?_isSome_of_step_le rule nonzero
    rw [step_le_twice_quarter_iff]
    have powerLarge : (10 : ℚ) ^ (-1074 : ℤ) * unitsPerOne ≤ 1 / 2 := by
      have inverse := ten_zpow_mul_unitsPerOne_lt
      have finer : (10 : ℚ) ^ (-1074 : ℤ) ≤ 10 ^ (-400 : ℤ) :=
        zpow_le_zpow_right₀ (by norm_num) (by decide)
      exact (mul_le_mul_of_nonneg_right finer unitsPositive.le).trans inverse.le
    have placeLarge : (1 : ℚ) ≤ 2 ^ magnitude.exponent := one_le_pow₀ (by norm_num)
    linarith
  have found : ∃ depth < (magnitude.coarsestExponent + 1075).toNat,
      ((around magnitude (magnitude.coarsestExponent - depth)).choice? rule).isSome := by
    refine ⟨(magnitude.coarsestExponent + 1074).toNat, by omega, ?_⟩
    have bottom : magnitude.coarsestExponent -
        ((magnitude.coarsestExponent + 1074).toNat : ℤ) = -1074 := by omega
    rw [bottom]
    exact finest
  obtain ⟨depth, coefficient, depthBound, resultEq, chosen, before⟩ :=
    searchGrids_eq magnitude rule _ _ found
  refine ⟨depth, coefficient, by omega, ?_, chosen, before⟩
  unfold shortest
  rw [if_neg (by simpa [isZero] using nonzero), resultEq]

theorem admits_shortest {magnitude : Magnitude} (rule : HalfwayRule)
    (nonzero : magnitude.significand ≠ 0) :
    (around magnitude (magnitude.shortest rule).exponent).admits
      (magnitude.shortest rule).coefficient = true := by
  obtain ⟨depth, coefficient, _, shortestEq, chosen, _⟩ := exists_shortest rule nonzero
  rw [shortestEq]
  exact admits_of_choice? chosen

/-- Nothing on a grid coarser than the search's start reads back. -/
theorem exponent_lt_coarsest_of_admits {magnitude : Magnitude} {exponent : Int} {coefficient : Nat}
    (nonzero : magnitude.significand ≠ 0)
    (admitted : (around magnitude exponent).admits coefficient = true) :
    exponent < magnitude.coarsestExponent := by
  by_contra coarse
  rw [not_lt] at coarse
  have unitsPositive : (0 : ℚ) < unitsPerOne := by exact_mod_cast unitsPerOne_pos
  have start := high_lt_coarsest magnitude
  have size := size_le_of_admits nonzero admitted
  have atLeastOne : (1 : ℚ) ≤ coefficient := by
    exact_mod_cast (bounds_of_admits nonzero admitted).1
  have powerPositive : (0 : ℚ) < 10 ^ exponent := by positivity
  have ordered : (10 : ℚ) ^ magnitude.coarsestExponent ≤ 10 ^ exponent :=
    zpow_le_zpow_right₀ (by norm_num) coarse
  have reached : (10 : ℚ) ^ magnitude.coarsestExponent * unitsPerOne ≤
      coefficient * 10 ^ exponent * unitsPerOne :=
    mul_le_mul_of_nonneg_right (ordered.trans (le_mul_of_one_le_left powerPositive.le atLeastOne))
      unitsPositive.le
  linarith

/-- No multiple of a greater power of ten reads back. -/
theorem exponent_le_shortest_of_admits {magnitude : Magnitude} (rule : HalfwayRule)
    {exponent : Int} {coefficient : Nat} (nonzero : magnitude.significand ≠ 0)
    (admitted : (around magnitude exponent).admits coefficient = true) :
    exponent ≤ (magnitude.shortest rule).exponent := by
  obtain ⟨depth, found, _, shortestEq, _, before⟩ := exists_shortest rule nonzero
  have belowStart := exponent_lt_coarsest_of_admits nonzero admitted
  rw [shortestEq]
  by_contra coarser
  rw [not_le] at coarser
  have place : magnitude.coarsestExponent -
      ((magnitude.coarsestExponent - exponent).toNat : ℤ) = exponent := by omega
  dsimp only at coarser
  have empty := before (magnitude.coarsestExponent - exponent).toNat (by omega)
  have isSome := choice?_isSome_of_admits rule nonzero admitted
  rw [place] at empty
  rw [empty] at isSome
  cases isSome

/-- The fewest digits that read back: they denote no zero, lie at most half a unit of the last place
above the magnitude, and are at most eighteen. -/
theorem shortest_bounds {magnitude : Magnitude} (rule : HalfwayRule)
    (nonzero : magnitude.significand ≠ 0) :
    0 < (magnitude.shortest rule).coefficient ∧
      (magnitude.shortest rule).coefficient < 20 * magnitude.significand + 10 ∧
      -1074 ≤ (magnitude.shortest rule).exponent ∧ (magnitude.shortest rule).exponent ≤ 308 ∧
      ((magnitude.shortest rule).coefficient : ℚ) * 10 ^ (magnitude.shortest rule).exponent *
          unitsPerOne ≤
        magnitude.units + 2 ^ magnitude.exponent / 2 := by
  obtain ⟨_, highest⟩ := coarsestExponent_bounds magnitude
  obtain ⟨depth, coefficient, depthBound, shortestEq, chosen, before⟩ :=
    exists_shortest rule nonzero
  have admitted := admits_of_choice? chosen
  have coefficientPositive := (bounds_of_admits nonzero admitted).1
  have size := size_le_of_admits nonzero admitted
  have notFirst := exponent_lt_coarsest_of_admits nonzero admitted
  -- The grid before the chosen one has no multiple that reads back, so its step is wide.
  have wide : (2 : ℚ) ^ magnitude.exponent / 2 <
      10 * (10 ^ (magnitude.coarsestExponent - depth) * unitsPerOne) := by
    have previous : magnitude.coarsestExponent - ((depth - 1 : Nat) : ℤ) =
        magnitude.coarsestExponent - depth + 1 := by omega
    have empty := before (depth - 1) (by omega)
    rw [previous] at empty
    have notFine := mt (choice?_isSome_of_step_le rule nonzero)
      (by rw [empty]; exact Bool.false_ne_true)
    rw [step_le_twice_quarter_iff, not_le, zpow_add_one₀ (by norm_num)] at notFine
    linarith
  rw [shortestEq]
  dsimp only
  refine ⟨coefficientPositive, ?_, by omega, by omega, size⟩
  have unitsEq : (magnitude.units : ℚ) = magnitude.significand * 2 ^ magnitude.exponent := by
    exact_mod_cast rfl
  rw [unitsEq, mul_assoc] at size
  generalize (10 : ℚ) ^ (magnitude.coarsestExponent - depth) * unitsPerOne = place at *
  have scaled : (coefficient : ℚ) * place < (20 * magnitude.significand + 10) * place := by
    have widened : (magnitude.significand : ℚ) * 2 ^ magnitude.exponent +
        2 ^ magnitude.exponent / 2 < (20 * magnitude.significand + 10) * place := by
      have significandPositive : (0 : ℚ) ≤ magnitude.significand := by positivity
      nlinarith
    linarith
  have placePositive : 0 < place := by
    have placeLarge : (0 : ℚ) < 2 ^ magnitude.exponent := by positivity
    linarith
  exact_mod_cast lt_of_mul_lt_mul_right scaled placePositive.le

end Magnitude

end Keypad
