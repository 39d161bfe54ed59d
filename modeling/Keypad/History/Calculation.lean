import Keypad.Expression.Basic

/-!
Contract: finished calculations, the records of the history.

Owns:
- a calculation as an expression with its result;
- its row in a history listing;
- whether all its numbers can be stored.

Does not own: documents, slots, sessions.
-/

namespace Keypad

/-- A finished calculation. The result is kept beside the expression and never recomputed. -/
structure Calculation where
  expression : Expression
  result : Binary64
  deriving DecidableEq

namespace Calculation

def resultText (calculation : Calculation) : String := calculation.result.rowText

/-- The line of a history listing: the expression, an equals sign, the result. -/
def row (calculation : Calculation) : String :=
  calculation.expression.text ++ " = " ++ calculation.resultText

/-- Whether every number is finite; a stored document has no form for the others. -/
def isEncodable (calculation : Calculation) : Bool :=
  calculation.result.isFinite && calculation.expression.items.all Item.isEncodable

end Calculation

end Keypad
