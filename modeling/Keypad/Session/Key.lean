import Keypad.Expression.Operator
import Keypad.Number.Decimal

/-!
Contract: the keys of the keypad.

Owns:
- keys, and the characters printed on them.

Does not own: what pressing a key does, other characters that a terminal accepts.
-/

namespace Keypad

inductive Key where
  | digit (character : Char)
  | period
  | operator (operation : Operator)
  | equals
  | clear
  deriving DecidableEq

/-- The key that a character is printed on. -/
def Key.ofCharacter? (character : Char) : Option Key :=
  if character.isDigit then
    some (.digit character)
  else if character = Decimal.point then
    some .period
  else if character = '=' then
    some .equals
  else if character = 'C' then
    some .clear
  else
    (Operator.ofCharacter? character).map Key.operator

end Keypad
