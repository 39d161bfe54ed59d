import Keypad.Expression.Basic

/-!
Contract: an expression in which operands and operators alternate evaluates to a left fold.

Owns:
- alternating sequences of items;
- the arithmetic of the operators without the fault of a zero divisor;
- their evaluation.

Does not own: sequences in any other order.
-/

namespace Keypad

namespace Operator

/-- The operator's arithmetic, whatever the divisor. -/
def apply : Operator → Binary64 → Binary64 → Binary64
  | .add, left, right => left + right
  | .subtract, left, right => left - right
  | .multiply, left, right => left * right
  | .divide, left, right => left / right

/-- Whether the operator divides by a zero of either sign. -/
def dividesByZero (operation : Operator) (right : Binary64) : Bool :=
  operation = .divide && right.isZero

theorem calculate_eq (operation : Operator) (left right : Binary64) :
    operation.calculate left right =
      if operation.dividesByZero right then .error .dividedByZero
      else .ok (operation.apply left right) := by
  cases operation with
  | divide => cases isZero : right.isZero <;> simp [calculate, dividesByZero, isZero, apply]
  | _ => rfl

end Operator

namespace Expression

/-- An operand, and operators each with a further operand. -/
def alternating (first : Binary64) (rest : List (Operator × Binary64)) : List Item :=
  .number first :: rest.flatMap fun entry => [.operator entry.1, .number entry.2]

/-- One step after the other, from left to right. -/
def leftFold (first : Binary64) (rest : List (Operator × Binary64)) : Binary64 :=
  rest.foldl (fun running entry => entry.1.apply running entry.2) first

theorem evaluateFrom_alternating (running : Binary64) (rest : List (Operator × Binary64)) :
    evaluateFrom running (rest.flatMap fun entry => [.operator entry.1, .number entry.2]) =
      if rest.any fun entry => entry.1.dividesByZero entry.2 then .error .dividedByZero
      else .ok (leftFold running rest) := by
  induction rest generalizing running with
  | nil => rfl
  | cons entry rest inductionHypothesis =>
      rw [List.flatMap_cons, List.cons_append, List.singleton_append, evaluateFrom,
        Operator.calculate_eq]
      cases divides : entry.1.dividesByZero entry.2 with
      | true => simp [divides]
      | false =>
          rw [if_neg Bool.false_ne_true]
          dsimp only
          rw [inductionHypothesis, List.any_cons, divides, Bool.false_or]
          rfl

/-- An alternating expression is the left fold of its operators, unless one of them divides by
zero. -/
theorem evaluate_alternating (first : Binary64) (rest : List (Operator × Binary64)) :
    evaluate ⟨alternating first rest⟩ =
      if rest.any fun entry => entry.1.dividesByZero entry.2 then .error .dividedByZero
      else .ok (leftFold first rest) :=
  evaluateFrom_alternating first rest

end Expression

end Keypad
