import Keypad.Expression.Operator
import Keypad.Number.Numeral

/-!
Contract: expressions as the keypad collects them, and their value.

Owns:
- items and expressions, a plain sequence in which nothing forces operands and operators to
  alternate;
- evaluation strictly from left to right, without precedence;
- the text of an expression.

Does not own: records of finished calculations.
-/

namespace Keypad

/-- A number or an operator. -/
inductive Item where
  | number (value : Binary64)
  | operator (operation : Operator)
  deriving DecidableEq

/-- Numbers as in history rows, operators as their symbols. -/
def Item.text : Item → String
  | .number value => value.rowText
  | .operator operation => operation.symbol

/-- Whether the item is an operator or a finite number. -/
def Item.isEncodable : Item → Bool
  | .number value => value.isFinite
  | .operator _ => true

structure Expression where
  items : List Item
  deriving DecidableEq

namespace Expression

def empty : Expression := ⟨[]⟩

instance : EmptyCollection Expression := ⟨empty⟩
instance : Inhabited Expression := ⟨empty⟩

def size (expression : Expression) : Nat := expression.items.length

def isEmpty (expression : Expression) : Bool := expression.items.isEmpty

/-- The expression with one more item at its end. -/
def push (expression : Expression) (item : Item) : Expression :=
  ⟨expression.items ++ [item]⟩

/-- The items' texts with a blank between neighbours. -/
def text (expression : Expression) : String :=
  " ".intercalate (expression.items.map Item.text)

/-- Continues a calculation from a running value, as long as an operator and a number follow.

What follows the first place where they do not is ignored. -/
def evaluateFrom (running : Binary64) : List Item → Except CalculationError Binary64
  | .operator operation :: .number operand :: rest =>
      match operation.calculate running operand with
      | .ok result => evaluateFrom result rest
      | .error fault => .error fault
  | _ => .ok running

/-- The value of an expression; zero when it does not begin with a number. -/
def evaluate (expression : Expression) : Except CalculationError Binary64 :=
  match expression.items with
  | .number first :: rest => evaluateFrom first rest
  | _ => .ok .zero

end Expression

end Keypad
