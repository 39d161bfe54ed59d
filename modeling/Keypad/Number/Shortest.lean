import Keypad.Number.Decimal

/-!
Contract: the fewest decimal digits that read back to a given magnitude.

A decimal reads back to a magnitude when it lies between the two points halfway to the neighbouring
magnitudes; those points themselves belong to the magnitude with the even significand. On the grid
of multiples of a power of ten only the two multiples around the magnitude matter: if any multiple
reads back, one of these does. The coarsest grid with such a multiple gives the fewest digits.

Owns:
- the interval of decimals that read back;
- the search for the coarsest grid, and the choice between two candidates on it.

Does not own: how digits are laid out.
-/

namespace Keypad

/-- Which candidate a magnitude takes that lies exactly halfway between two. -/
inductive HalfwayRule where
  | toEven
  | upward
  deriving DecidableEq

/-- A magnitude seen from the multiples of one power of ten.

All numbers are counted so that one multiple is `step`: the magnitude itself is `point`, and
decimals from `low` to `high` read back to it. -/
structure DecimalGrid where
  step : Nat
  low : Nat
  point : Nat
  high : Nat
  endsIncluded : Bool

namespace DecimalGrid

/-- The grid of multiples of `10 ^ exponent` around a magnitude.

The gap below the least significand of a binade is half as wide as the gap above it. -/
def around (magnitude : Magnitude) (exponent : Int) : DecimalGrid :=
  let significand := magnitude.significand
  let quarter := Nat.pow 2 (magnitude.exponent - 1074) * Nat.pow 10 (-exponent).toNat
  let below := if significand = 4503599627370496 ∧ magnitude.exponent ≠ 0 then 1 else 2
  { step := 4 * Nat.pow 2 (1074 - magnitude.exponent) * Nat.pow 10 exponent.toNat
    low := (4 * significand - below) * quarter
    point := 4 * significand * quarter
    high := (4 * significand + 2) * quarter
    endsIncluded := significand % 2 == 0 }

/-- Whether the multiple with this coefficient reads back to the magnitude. -/
def admits (grid : DecimalGrid) (coefficient : Nat) : Bool :=
  let multiple := coefficient * grid.step
  if grid.endsIncluded then
    grid.low ≤ multiple && multiple ≤ grid.high
  else
    grid.low < multiple && multiple < grid.high

/-- The greatest coefficient whose multiple does not exceed the magnitude. -/
def floor (grid : DecimalGrid) : Nat := grid.point / grid.step

/-- The nearer of the two coefficients around the magnitude. -/
def nearer (grid : DecimalGrid) (rule : HalfwayRule) : Nat :=
  let doubled := 2 * (grid.point % grid.step)
  if doubled < grid.step then
    grid.floor
  else if grid.step < doubled then
    grid.floor + 1
  else
    match rule with
    | .toEven => if grid.floor % 2 = 0 then grid.floor else grid.floor + 1
    | .upward => grid.floor + 1

/-- The coefficient to take from this grid, if a multiple on it reads back. -/
def choice? (grid : DecimalGrid) (rule : HalfwayRule) : Option Nat :=
  match grid.admits grid.floor, grid.admits (grid.floor + 1) with
  | true, true => some (grid.nearer rule)
  | true, false => some grid.floor
  | false, true => some (grid.floor + 1)
  | false, false => none

end DecimalGrid

namespace Magnitude

/-- An exponent of ten whose power exceeds every decimal that reads back to the magnitude.

Those decimals lie below `2 ^ bits` units; `2 ^ 93 ≤ 10 ^ 28` and `10 ^ 3 ≤ 2 ^ 10` turn the power
of two into a power of ten. -/
def coarsestExponent (magnitude : Magnitude) : Int :=
  let bits := magnitude.significand.log2 + magnitude.exponent + 2
  if 1074 ≤ bits then
    ((28 * (bits - 1074) / 93 + 1 : Nat) : Int)
  else
    -((3 * (1074 - bits) / 10 : Nat) : Int)

/-- Searches from a coarse grid to finer ones, at most `steps` grids.

The grid of `10 ^ (-1074)` holds every magnitude, so a search that may reach it succeeds. -/
def searchGrids (magnitude : Magnitude) (rule : HalfwayRule) : Nat → Int → Decimal
  | 0, exponent => ⟨(DecimalGrid.around magnitude exponent).floor, exponent⟩
  | steps + 1, exponent =>
      match (DecimalGrid.around magnitude exponent).choice? rule with
      | some coefficient => ⟨coefficient, exponent⟩
      | none => searchGrids magnitude rule steps (exponent - 1)

/-- The decimal with the fewest digits that reads back to the magnitude; of several, the one
nearest to it. -/
def shortest (magnitude : Magnitude) (rule : HalfwayRule) : Decimal :=
  if magnitude.isZero then
    ⟨0, 0⟩
  else
    searchGrids magnitude rule
      (magnitude.coarsestExponent + 1075).toNat magnitude.coarsestExponent

end Magnitude

end Keypad
