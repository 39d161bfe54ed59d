import Keypad.Json.Fault

/-!
Contract: numbers in JSON texts.

Owns:
- the grammar of number literals;
- their values: whole numbers where they fit 64 bits, binary64 values otherwise.

The value of a literal with a fraction or a power is not its nearest binary64 value. Its leading
digits, as many as fit 64 bits, make a whole number; this is rounded, then multiplied or divided by
a rounded power of ten, in several steps when the power is large.

Does not own: which numbers a reader wants.
-/

namespace Keypad.Json

/-! ## Literals -/

/-- The sign and the digits after the mark of a power of ten. -/
structure PowerLiteral where
  negative : Bool
  digits : List Char
  deriving DecidableEq

/-- The parts of a number as written. -/
structure NumberLiteral where
  negative : Bool
  whole : List Char
  fraction : Option (List Char)
  power : Option PowerLiteral
  deriving DecidableEq

/-- Reads a digit and all digits after it. -/
def readDigits (text : List Char) : Step (List Char) :=
  match text with
  | [] => .error .truncated
  | first :: _ =>
      if first.isDigit then
        .ok (text.takeWhile Char.isDigit, text.dropWhile Char.isDigit)
      else
        .error .malformed

/-- Reads the digits before a point; more than one do not begin with a zero. -/
def readWhole (text : List Char) : Step (List Char) :=
  match readDigits text with
  | .ok ('0' :: _ :: _, _) => .error .malformed
  | other => other

/-- Reads a point and the digits after it, if there is a point. -/
def readFraction (text : List Char) : Step (Option (List Char)) :=
  match text with
  | '.' :: rest =>
      match readDigits rest with
      | .ok (digits, rest) => .ok (some digits, rest)
      | .error fault => .error fault
  | _ => .ok (none, text)

/-- Reads the digits of a power of ten with the given sign. -/
def readPowerDigits (negative : Bool) (text : List Char) : Step (Option PowerLiteral) :=
  match readDigits text with
  | .ok (digits, rest) => .ok (some ⟨negative, digits⟩, rest)
  | .error fault => .error fault

/-- Reads a power of ten, if there is the mark of one. -/
def readPower (text : List Char) : Step (Option PowerLiteral) :=
  match text with
  | [] => .ok (none, [])
  | mark :: rest =>
      if mark = 'e' ∨ mark = 'E' then
        match rest with
        | '+' :: digits => readPowerDigits false digits
        | '-' :: digits => readPowerDigits true digits
        | digits => readPowerDigits false digits
      else
        .ok (none, text)

/-- Reads the parts of a number after its sign. -/
def readUnsigned (negative : Bool) (text : List Char) : Step NumberLiteral :=
  match readWhole text with
  | .error fault => .error fault
  | .ok (whole, rest) =>
      match readFraction rest with
      | .error fault => .error fault
      | .ok (fraction, rest) =>
          match readPower rest with
          | .error fault => .error fault
          | .ok (power, rest) => .ok (⟨negative, whole, fraction, power⟩, rest)

/-- Reads a number literal. -/
def readLiteral (text : List Char) : Step NumberLiteral :=
  match text with
  | '-' :: rest => readUnsigned true rest
  | _ => readUnsigned false text

/-- Passes over a number literal; one that ends early counts as malformed. -/
def skipNumber (text : List Char) : Result (List Char) :=
  match readLiteral text with
  | .ok (_, rest) => .ok rest
  | .error _ => .error .malformed

/-! ## Values -/

/-- A number as its literal gives it. -/
inductive Number where
  | natural (value : Nat)
  | negative (size : Nat)
  | float (value : Binary64)
  deriving DecidableEq

namespace Number

/-- The binary64 value; a whole number is rounded once. -/
def toBinary64 : Number → Binary64
  | .natural value => .ofNat value
  | .negative size => -.ofNat size
  | .float value => value

def found : Number → Found
  | .natural value => .integer value
  | .negative size => .integer (-(size : Int))
  | .float value => .float value

end Number

/-- The greatest whole number kept exactly, `2 ^ 64 - 1`. -/
def naturalLimit : Nat := 18446744073709551615

/-- The size of the least negative whole number kept exactly, `2 ^ 63`. -/
def negativeLimit : Nat := 9223372036854775808

/-- The greatest size of a power of ten that is counted, `2 ^ 31 - 1`. -/
def powerLimit : Nat := 2147483647

/-- Appends digits to a whole number while it fits, and counts the digits left over. -/
def accumulate (significand : Nat) : List Char → Nat × Nat
  | [] => (significand, 0)
  | digit :: rest =>
      let extended := 10 * significand + (digit.toNat - '0'.toNat)
      if extended ≤ naturalLimit then accumulate extended rest else (significand, rest.length + 1)

/-- A power of ten, rounded. -/
def powerOfTen (power : Nat) : Binary64 := .ofNat (Nat.pow 10 power)

/-- Multiplies or divides by a power of ten; none when the value leaves the finite range.

Powers beyond `10 ^ 308` are divided off in steps of that size. -/
def scale (value : Binary64) (power : Int) : Option Binary64 :=
  if power.natAbs ≤ 308 then
    if 0 ≤ power then
      let scaled := value * powerOfTen power.natAbs
      if scaled.isInfinite then none else some scaled
    else
      some (value / powerOfTen power.natAbs)
  else if value.isZero then
    some value
  else if 0 ≤ power then
    none
  else
    scale (value / powerOfTen 308) (power + 308)
termination_by power.natAbs

/-- The written power, or none when its size is not counted. -/
def PowerLiteral.value? (power : PowerLiteral) : Option Int :=
  let size := Decimal.digitsValue power.digits
  if size ≤ powerLimit then some (if power.negative then -(size : Int) else size) else none

/-- Keeps a power within 32 bits. -/
def clampPower (power : Int) : Int :=
  max (-(powerLimit + 1 : Nat) : Int) (min power (powerLimit : Nat))

/-- The size of a literal with a fraction or a power or too many digits; none out of range. -/
def NumberLiteral.size? (literal : NumberLiteral) : Option Binary64 :=
  let (leading, beyond) := accumulate 0 literal.whole
  let fraction := literal.fraction.getD []
  let (significand, dropped) := accumulate leading fraction
  let shift := (beyond : Int) - (fraction.length - dropped : Nat)
  match literal.power with
  | none => scale (.ofNat significand) shift
  | some power =>
      match power.value? with
      | some written => scale (.ofNat significand) (clampPower (shift + written))
      | none => if power.negative ∨ significand = 0 then some .zero else none

/-- The whole number that a literal without fraction and power gives, if it is kept exactly. -/
def NumberLiteral.whole? (literal : NumberLiteral) : Option Number :=
  let (value, beyond) := accumulate 0 literal.whole
  if literal.fraction.isSome ∨ literal.power.isSome ∨ beyond ≠ 0 then
    none
  else if literal.negative then
    if value = 0 ∨ negativeLimit < value then
      some (.float (-.ofNat value))
    else
      some (.negative value)
  else
    some (.natural value)

/-- The value of a literal; one out of range is a malformed number. -/
def NumberLiteral.number (literal : NumberLiteral) : Result Number :=
  match literal.whole? with
  | some number => .ok number
  | none =>
      match literal.size? with
      | some size => .ok (.float (if literal.negative then -size else size))
      | none => .error .malformed

/-- Reads a number. -/
def readNumber (text : List Char) : Step Number :=
  match readLiteral text with
  | .error fault => .error fault
  | .ok (literal, rest) =>
      match literal.number with
      | .ok number => .ok (number, rest)
      | .error fault => .error fault

/-! ## Progress -/

theorem readDigits_length {text digits rest : List Char}
    (read : readDigits text = .ok (digits, rest)) : rest.length < text.length := by
  unfold readDigits at read
  split at read
  · cases read
  next first tail =>
    split at read
    next isDigit =>
      simp only [Except.ok.injEq, Prod.mk.injEq] at read
      rw [← read.2, List.dropWhile_cons, if_pos isDigit, List.length_cons]
      have suffix := (List.dropWhile_suffix Char.isDigit (l := tail)).length_le
      omega
    · cases read

theorem readWhole_length {text digits rest : List Char}
    (read : readWhole text = .ok (digits, rest)) : rest.length < text.length := by
  unfold readWhole at read
  split at read
  · cases read
  · exact readDigits_length read

theorem readFraction_length {text rest : List Char} {fraction : Option (List Char)}
    (read : readFraction text = .ok (fraction, rest)) : rest.length ≤ text.length := by
  unfold readFraction at read
  split at read
  · split at read
    next digits tail digitsRead =>
      have shorter := readDigits_length digitsRead
      cases read
      simp only [List.length_cons]
      omega
    · cases read
  · cases read
    exact Nat.le_refl _

theorem readPowerDigits_length {negative : Bool} {text rest : List Char}
    {power : Option PowerLiteral} (read : readPowerDigits negative text = .ok (power, rest)) :
    rest.length < text.length := by
  unfold readPowerDigits at read
  split at read
  next digits tail digitsRead =>
    cases read
    exact readDigits_length digitsRead
  · cases read

theorem readPower_length {text rest : List Char} {power : Option PowerLiteral}
    (read : readPower text = .ok (power, rest)) : rest.length ≤ text.length := by
  unfold readPower at read
  split at read
  · cases read
    exact Nat.le_refl _
  · split at read
    · split at read <;>
        · have shorter := readPowerDigits_length read
          simp only [List.length_cons]
          omega
    · cases read
      exact Nat.le_refl _

theorem readUnsigned_length {negative : Bool} {text rest : List Char} {literal : NumberLiteral}
    (read : readUnsigned negative text = .ok (literal, rest)) : rest.length < text.length := by
  unfold readUnsigned at read
  split at read
  · cases read
  next whole afterWhole wholeRead =>
    split at read
    · cases read
    next fraction afterFraction fractionRead =>
      split at read
      · cases read
      next power afterPower powerRead =>
        have first := readWhole_length wholeRead
        have second := readFraction_length fractionRead
        have third := readPower_length powerRead
        simp only [Except.ok.injEq, Prod.mk.injEq] at read
        rw [← read.2]
        omega

theorem readLiteral_length {text rest : List Char} {literal : NumberLiteral}
    (read : readLiteral text = .ok (literal, rest)) : rest.length < text.length := by
  unfold readLiteral at read
  split at read
  · have shorter := readUnsigned_length read
    simp only [List.length_cons]
    omega
  · exact readUnsigned_length read

theorem skipNumber_length {text rest : List Char} (skipped : skipNumber text = .ok rest) :
    rest.length < text.length := by
  unfold skipNumber at skipped
  split at skipped
  next literal tail literalRead =>
    cases skipped
    exact readLiteral_length literalRead
  · cases skipped

theorem readNumber_length {text rest : List Char} {number : Number}
    (read : readNumber text = .ok (number, rest)) : rest.length < text.length := by
  unfold readNumber at read
  split at read
  · cases read
  next literal tail literalRead =>
    split at read
    · simp only [Except.ok.injEq, Prod.mk.injEq] at read
      rw [← read.2]
      exact readLiteral_length literalRead
    · cases read

end Keypad.Json
