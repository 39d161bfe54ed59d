import Keypad.Number.Numeral

/-!
Contract: binary64 values as JSON texts write them.

Owns:
- the style of written numbers.

Does not own: reading numbers.
-/

namespace Keypad.Json

/-- Positional from `0.00001` and below `10 ^ 16`, a sign on every power; JSON has no form for the
values that are not finite, and `null` stands in their place. -/
def numberStyle : NumeralStyle where
  halfway := .toEven
  leastPlace := -4
  greatestPlace := 16
  writesPlus := true
  notANumber := "null"
  infinity := "null"
  negativeInfinity := "null"

/-- The JSON text of a value. -/
def writeNumber (value : Binary64) : List Char := numberStyle.write value

/-- The JSON text of a natural number. -/
def writeNatural (value : Nat) : List Char := Nat.toDigits 10 value

/-- The JSON text of a whole number. -/
def writeInteger (value : Int) : List Char :=
  (if value < 0 then ['-'] else []) ++ writeNatural value.natAbs

end Keypad.Json
