import Keypad.Number.Binary64

/-!
Contract: the four operators of the calculator.

Owns:
- operators and the symbols that write them;
- calculation with two numbers, in which a zero divisor is an error;
- the fault of a symbol that writes no operator.

Does not own: keys, order of evaluation.
-/

namespace Keypad

inductive Operator where
  | add
  | subtract
  | multiply
  | divide
  deriving DecidableEq, Repr

/-- A text that was to write an operator and does not. -/
structure UnknownOperator where
  text : String
  deriving DecidableEq

def UnknownOperator.message (fault : UnknownOperator) : String :=
  "Unknown operator symbol: '" ++ fault.text ++ "'"

/-- Why a calculation has no result. -/
inductive CalculationError where
  | dividedByZero
  deriving DecidableEq

def CalculationError.message : CalculationError → String
  | .dividedByZero => "Division by zero"

namespace Operator

/-- The keypad character of an operator; the minus is U+2212, not the hyphen. -/
def character : Operator → Char
  | .add => '+'
  | .subtract => '\u2212'
  | .multiply => '\u00d7'
  | .divide => '\u00f7'

def symbol (operator : Operator) : String := String.singleton operator.character

def ofCharacter? : Char → Option Operator
  | '+' => some .add
  | '\u2212' => some .subtract
  | '\u00d7' => some .multiply
  | '\u00f7' => some .divide
  | _ => none

/-- Only a text of exactly one operator character writes an operator. -/
def ofSymbol? (text : String) : Option Operator :=
  match text.toList with
  | [character] => ofCharacter? character
  | _ => none

def parse (text : String) : Except UnknownOperator Operator :=
  match ofSymbol? text with
  | some operator => .ok operator
  | none => .error ⟨text⟩

/-- Applies the operator. Any zero divisor, of either sign, is an error; all else follows the
arithmetic of binary64 and may be infinite or not a number. -/
def calculate (operator : Operator) (left right : Binary64) :
    Except CalculationError Binary64 :=
  match operator with
  | .add => .ok (left + right)
  | .subtract => .ok (left - right)
  | .multiply => .ok (left * right)
  | .divide => if right.isZero then .error .dividedByZero else .ok (left / right)

theorem ofCharacter?_character (operator : Operator) :
    ofCharacter? operator.character = some operator := by
  cases operator <;> rfl

theorem ofSymbol?_symbol (operator : Operator) : ofSymbol? operator.symbol = some operator := by
  simp [ofSymbol?, symbol, ofCharacter?_character]

end Operator

end Keypad
