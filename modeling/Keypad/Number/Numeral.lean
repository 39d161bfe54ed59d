import Keypad.Number.Shortest

/-!
Contract: written forms of binary64 values with the fewest digits.

Owns:
- the positional and the scientific layout of digits;
- a style record with the decisions in which written forms differ;
- the style of history rows.

Does not own: the choice of digits, forms with a bounded number of fraction digits.
-/

namespace Keypad

/-- The decisions of one written form.

A value is `0.d₁d₂… * 10 ^ place`; it is written positionally when `place` is between
`leastPlace` and `greatestPlace`, and as `d₁.d₂…e<power>` otherwise. -/
structure NumeralStyle where
  halfway : HalfwayRule
  leastPlace : Int
  greatestPlace : Int
  writesPlus : Bool
  notANumber : String
  infinity : String
  negativeInfinity : String

namespace NumeralStyle

/-- Digits with a point at the given place; at least one digit stands on each side. -/
def positional (digits : List Char) (place : Int) : List Char :=
  if place ≤ 0 then
    '0' :: Decimal.point :: (List.replicate (-place).toNat '0' ++ digits)
  else if (digits.length : Int) ≤ place then
    digits ++ List.replicate (place - digits.length).toNat '0' ++ [Decimal.point, '0']
  else
    digits.take place.toNat ++ Decimal.point :: digits.drop place.toNat

/-- The power of ten of a scientific form. -/
def powerText (writesPlus : Bool) (power : Int) : List Char :=
  let sign := if power < 0 then ['-'] else if writesPlus then ['+'] else []
  'e' :: (sign ++ Nat.toDigits 10 power.natAbs)

/-- One digit, the others behind a point if there are any, and the power of ten. -/
def scientific (writesPlus : Bool) (digits : List Char) (place : Int) : List Char :=
  let fraction := digits.drop 1
  let tail := if fraction.isEmpty then [] else Decimal.point :: fraction
  digits.take 1 ++ tail ++ powerText writesPlus (place - 1)

/-- The form of a size. -/
def unsigned (style : NumeralStyle) (magnitude : Magnitude) : List Char :=
  if magnitude.isZero then
    ['0', Decimal.point, '0']
  else
    let decimal := magnitude.shortest style.halfway
    let digits := Nat.toDigits 10 decimal.coefficient
    let place := digits.length + decimal.exponent
    if style.leastPlace ≤ place ∧ place ≤ style.greatestPlace then
      positional digits place
    else
      scientific style.writesPlus digits place

/-- The form of a value. -/
def write (style : NumeralStyle) : Binary64 → List Char
  | .nan => style.notANumber.toList
  | .infinite false => style.infinity.toList
  | .infinite true => style.negativeInfinity.toList
  | .finite negative magnitude => (if negative then ['-'] else []) ++ style.unsigned magnitude

/-- History rows: positional from `0.0001` and below `10 ^ 16`, no sign on a positive power. -/
def row : NumeralStyle where
  halfway := .upward
  leastPlace := -3
  greatestPlace := 16
  writesPlus := false
  notANumber := "NaN"
  infinity := "inf"
  negativeInfinity := "-inf"

end NumeralStyle

/-- The text of a value in history rows. -/
def Binary64.rowText (value : Binary64) : String :=
  String.ofList (NumeralStyle.row.write value)

end Keypad
