import Keypad.Number.Binary64

/-!
Contract: decimal numbers and their written forms, read to the nearest binary64 value.

Owns:
- decimals as a coefficient and a power of ten;
- the positional form: digits with at most one point among, before or after them;
- the free form of a number: a sign, a positional form, an optional power of ten, or a word for
  an infinity or for not a number.

Does not own: which forms the display or a document admits.
-/

namespace Keypad

/-- The number `coefficient * 10 ^ exponent`. -/
structure Decimal where
  coefficient : Nat
  exponent : Int
  deriving DecidableEq, Repr

namespace Decimal

/-- The character between the whole part and the fraction. -/
def point : Char := '.'

/-- The number that a text of digits denotes. -/
def digitsValue (digits : List Char) : Nat := Nat.ofDigitChars 10 digits 0

/-- Reads digits with at most one point among, before or after them and at least one digit. -/
def ofPositional? (text : List Char) : Option Decimal :=
  let whole := text.takeWhile Char.isDigit
  match text.dropWhile Char.isDigit with
  | [] => if whole.isEmpty then none else some ⟨digitsValue whole, 0⟩
  | separator :: fraction =>
      if separator = point ∧ fraction.all Char.isDigit ∧ ¬(whole ++ fraction).isEmpty then
        some ⟨digitsValue (whole ++ fraction), -(fraction.length : Int)⟩
      else
        none

/-- Reads digits with an optional sign before them. -/
def signedInteger? (text : List Char) : Option Int :=
  let unsigned? (digits : List Char) : Option Nat :=
    if digits.isEmpty ∨ ¬digits.all Char.isDigit then none else some (digitsValue digits)
  match text with
  | '-' :: digits => (unsigned? digits).map fun value => -(value : Int)
  | '+' :: digits => (unsigned? digits).map fun value => (value : Int)
  | digits => (unsigned? digits).map fun value => (value : Int)

/-- Reads a positional form with an optional power of ten after it. -/
def ofScientific? (text : List Char) : Option Decimal :=
  let isMark (character : Char) : Bool := character = 'e' || character = 'E'
  match text.dropWhile (!isMark ·) with
  | [] => ofPositional? text
  | _ :: power => do
      let decimal ← ofPositional? (text.takeWhile (!isMark ·))
      let shift ← signedInteger? power
      return ⟨decimal.coefficient, decimal.exponent + shift⟩

end Decimal

namespace Binary64

/-- The value nearest to a decimal with a sign. -/
def ofSignedDecimal (negative : Bool) (decimal : Decimal) : Binary64 :=
  ofDecimal negative decimal.coefficient decimal.exponent

private def ofUnsignedText? (negative : Bool) (text : List Char) : Option Binary64 :=
  if text = "inf".toList then
    some (.infinite negative)
  else
    (Decimal.ofScientific? text).map (ofSignedDecimal negative)

/-- Reads the free form of a number, rounded once: `-2.5`, `1e16`, `inf`, `NaN`. -/
def ofText? (text : List Char) : Option Binary64 :=
  match text with
  | '-' :: unsigned => ofUnsignedText? true unsigned
  | '+' :: unsigned => ofUnsignedText? false unsigned
  | unsigned => if unsigned = "NaN".toList then some .nan else ofUnsignedText? false unsigned

end Binary64

end Keypad
