import Keypad.Number.Decimal

/-!
Contract: numbers as the calculator's display shows and reads them.

Owns:
- the display form: a bounded number of fraction digits, correctly rounded, without idle zeros;
- the one fault of formatting, a bound beyond what can be laid out;
- reading the display.

Does not own: history rows, documents.
-/

namespace Keypad

/-- Why a value could not be laid out. -/
inductive FormatFault where
  | precisionOutOfRange
  deriving DecidableEq

def FormatFault.message : FormatFault → String
  | .precisionOutOfRange => "Formatting argument out of range"

/-- How the display writes numbers. -/
structure NumberFormat where
  maxFractionDigits : UInt64
  deriving DecidableEq

namespace NumberFormat

/-- Three fraction digits. -/
def standard : NumberFormat := ⟨3⟩

instance : Inhabited NumberFormat := ⟨standard⟩

/-- The greatest bound on fraction digits that can be laid out. -/
def precisionLimit : Nat := 65535

/-- The fraction digits worth writing: a magnitude has none beyond its binary fraction's length. -/
def places (format : NumberFormat) (magnitude : Magnitude) : Nat :=
  min format.maxFractionDigits.toNat (1074 - magnitude.exponent)

/-- The size as a whole number of `10 ^ (-places)`, rounded half to even. -/
def scaled (places : Nat) (magnitude : Magnitude) : Nat :=
  roundHalfEven
    (magnitude.significand * Nat.pow 2 (magnitude.exponent - 1074) * Nat.pow 10 places)
    (Nat.pow 2 (1074 - magnitude.exponent))

/-- A list without the zeros at its end. -/
def dropTrailingZeros (digits : List Char) : List Char :=
  (digits.reverse.dropWhile (· = '0')).reverse

/-- A whole number of `10 ^ (-places)` as digits with a point, without idle zeros. -/
def fixedText (places count : Nat) : List Char :=
  let digits := Nat.toDigits 10 count
  let padded := List.replicate (places + 1 - digits.length) '0' ++ digits
  let whole := padded.take (padded.length - places)
  let fraction := dropTrailingZeros (padded.drop (padded.length - places))
  if fraction.isEmpty then whole else whole ++ Decimal.point :: fraction

/-- The display form of a finite value; what rounds to zero has no sign. -/
def finiteText (format : NumberFormat) (negative : Bool) (magnitude : Magnitude) : List Char :=
  let places := format.places magnitude
  let count := scaled places magnitude
  (if negative && count != 0 then ['-'] else []) ++ fixedText places count

/-- The display form of a value. A finite one needs a bound within `precisionLimit`. -/
def format (numberFormat : NumberFormat) : Binary64 → Except FormatFault String
  | .nan => .ok "NaN"
  | .infinite negative => .ok (if negative then "-inf" else "inf")
  | .finite negative magnitude =>
      if numberFormat.maxFractionDigits.toNat ≤ precisionLimit then
        .ok (String.ofList (numberFormat.finiteText negative magnitude))
      else
        .error .precisionOutOfRange

/-- Reads a display: an optional minus, then digits with at most one point. The value is rounded
once and may be infinite. -/
def parse (text : String) : Option Binary64 :=
  match text.toList with
  | '-' :: unsigned => (Decimal.ofPositional? unsigned).map (Binary64.ofSignedDecimal true)
  | unsigned => (Decimal.ofPositional? unsigned).map (Binary64.ofSignedDecimal false)

end NumberFormat

end Keypad
