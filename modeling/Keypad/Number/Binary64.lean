import Keypad.Number.Magnitude

/-!
Contract: binary64 values and their arithmetic, each operation rounded once from its exact result.

Owns:
- the value type, in which equality is identity (one not-a-number, two zeros);
- correctly rounded values of exact quotients and of decimal numbers;
- addition, subtraction, multiplication and division with their special cases.

Does not own: texts of numbers, the calculator's rule for a zero divisor.
-/

namespace Keypad

/-- A binary64 value. Zero carries a sign; all not-a-number patterns are one value. -/
inductive Binary64 where
  | nan
  | infinite (negative : Bool)
  | finite (negative : Bool) (magnitude : Magnitude)
  deriving DecidableEq

namespace Binary64

def zero : Binary64 := .finite false .zero

def isFinite : Binary64 → Bool
  | .finite _ _ => true
  | _ => false

def isZero : Binary64 → Bool
  | .finite _ magnitude => magnitude.isZero
  | _ => false

def isInfinite : Binary64 → Bool
  | .infinite _ => true
  | _ => false

/-- The same size with the other sign. -/
def neg : Binary64 → Binary64
  | .nan => .nan
  | .infinite negative => .infinite !negative
  | .finite negative magnitude => .finite (!negative) magnitude

/-- The value nearest to `numerator / denominator` units with the given sign; infinite beyond
the greatest magnitude. -/
def ofQuotient (negative : Bool) (numerator denominator : Nat) : Binary64 :=
  match Magnitude.ofQuotient? numerator denominator with
  | some magnitude => .finite negative magnitude
  | none => .infinite negative

/-- The value nearest to a natural number. -/
def ofNat (value : Nat) : Binary64 :=
  ofQuotient false (value * Magnitude.unitsPerOne) 1

/-- The value nearest to `coefficient * 10 ^ exponent`.

Sizes from `10 ^ 400` on are infinite and sizes below `10 ^ (-400)` are zero, so such exponents
are answered without forming the power. -/
def ofDecimal (negative : Bool) (coefficient : Nat) (exponent : Int) : Binary64 :=
  if coefficient = 0 then
    .finite negative .zero
  else if 400 < exponent then
    .infinite negative
  else if exponent + coefficient.log2 < -400 then
    .finite negative .zero
  else
    ofQuotient negative
      (coefficient * Nat.pow 10 exponent.toNat * Magnitude.unitsPerOne)
      (Nat.pow 10 (-exponent).toNat)

/-- A finite value as a signed number of units. -/
def signedUnits (negative : Bool) (magnitude : Magnitude) : Int :=
  if negative then -(magnitude.units : Int) else magnitude.units

/-- The sum. An exact zero is negative only when both terms are. -/
def add : Binary64 → Binary64 → Binary64
  | .nan, _ => .nan
  | _, .nan => .nan
  | .infinite left, .infinite right => if left = right then .infinite left else .nan
  | .infinite left, .finite _ _ => .infinite left
  | .finite _ _, .infinite right => .infinite right
  | .finite left leftSize, .finite right rightSize =>
      let total := signedUnits left leftSize + signedUnits right rightSize
      if total = 0 then
        .finite (left && right) .zero
      else
        ofQuotient (decide (total < 0)) total.natAbs 1

/-- The difference is the sum with the second term's sign changed. -/
def sub (left right : Binary64) : Binary64 := left.add right.neg

/-- The product; an infinity times a zero is not a number. -/
def mul : Binary64 → Binary64 → Binary64
  | .nan, _ => .nan
  | _, .nan => .nan
  | .infinite left, .infinite right => .infinite (left ^^ right)
  | .infinite left, .finite right size =>
      if size.isZero then .nan else .infinite (left ^^ right)
  | .finite left size, .infinite right =>
      if size.isZero then .nan else .infinite (left ^^ right)
  | .finite left leftSize, .finite right rightSize =>
      ofQuotient (left ^^ right) (leftSize.units * rightSize.units) Magnitude.unitsPerOne

/-- The quotient. A nonzero value over zero is infinite; zero over zero and infinity over
infinity are not numbers. -/
def div : Binary64 → Binary64 → Binary64
  | .nan, _ => .nan
  | _, .nan => .nan
  | .infinite _, .infinite _ => .nan
  | .infinite left, .finite right _ => .infinite (left ^^ right)
  | .finite left _, .infinite right => .finite (left ^^ right) .zero
  | .finite left leftSize, .finite right rightSize =>
      if rightSize.isZero then
        if leftSize.isZero then .nan else .infinite (left ^^ right)
      else
        ofQuotient (left ^^ right) (leftSize.units * Magnitude.unitsPerOne) rightSize.units

instance : Neg Binary64 := ⟨neg⟩
instance : Add Binary64 := ⟨add⟩
instance : Sub Binary64 := ⟨sub⟩
instance : Mul Binary64 := ⟨mul⟩
instance : Div Binary64 := ⟨div⟩

instance : Inhabited Binary64 := ⟨zero⟩

end Binary64

end Keypad
