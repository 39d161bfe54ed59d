import Keypad.Proofs.Expression.LongestPrefix
import Keypad.Proofs.Session.Phases

/-!
Contract: an overflow shows in the result of an evaluation.

Once the running value is infinite or not a number, no operand makes it finite again. Only a quotient
of a finite value by an infinite one could, and the running value is the left operand of every step.

Owns:
- outcomes without a finite value, and that every step keeps them so;
- that a finite result has finite running values only, and the converse;
- that this holds of every calculation that a session records.

Does not own: which calculations overflow.
-/

namespace Keypad

/-! ## One step -/

namespace Binary64

variable {left : Binary64}

theorem add_isFinite_of_not (notFinite : left.isFinite = false) (right : Binary64) :
    (left + right).isFinite = false := by
  show (add left right).isFinite = false
  cases left with
  | nan => rfl
  | infinite negative =>
      cases right with
      | nan => rfl
      | infinite other =>
          show (if negative = other then infinite negative else nan).isFinite = false
          split <;> rfl
      | finite other magnitude => rfl
  | finite negative magnitude => cases notFinite

theorem mul_isFinite_of_not (notFinite : left.isFinite = false) (right : Binary64) :
    (left * right).isFinite = false := by
  show (mul left right).isFinite = false
  cases left with
  | nan => rfl
  | infinite negative =>
      cases right with
      | nan => rfl
      | infinite other => rfl
      | finite other magnitude =>
          show (if magnitude.isZero then nan else infinite (negative ^^ other)).isFinite = false
          split <;> rfl
  | finite negative magnitude => cases notFinite

theorem div_isFinite_of_not (notFinite : left.isFinite = false) (right : Binary64) :
    (left / right).isFinite = false := by
  cases left with
  | nan => rfl
  | infinite negative => cases right <;> rfl
  | finite negative magnitude => cases notFinite

end Binary64

/-- An outcome without a finite value. -/
inductive FailsOrOverflows : Except CalculationError Binary64 → Prop where
  | fails : FailsOrOverflows (.error .dividedByZero)
  | overflows {value : Binary64} (notFinite : value.isFinite = false) :
      FailsOrOverflows (.ok value)

theorem FailsOrOverflows.isFinite_eq {value : Binary64}
    (overflowed : FailsOrOverflows (.ok value)) : value.isFinite = false := by
  cases overflowed with
  | overflows notFinite => exact notFinite

/-- Whatever the operand, a step does not lead back to a finite value. -/
theorem Operator.calculate_failsOrOverflows (operation : Operator) {running : Binary64}
    (notFinite : running.isFinite = false) (operand : Binary64) :
    FailsOrOverflows (operation.calculate running operand) := by
  rw [calculate_eq]
  split
  · exact .fails
  · apply FailsOrOverflows.overflows
    cases operation with
    | add => exact Binary64.add_isFinite_of_not notFinite operand
    | subtract => exact Binary64.add_isFinite_of_not notFinite operand.neg
    | multiply => exact Binary64.mul_isFinite_of_not notFinite operand
    | divide => exact Binary64.div_isFinite_of_not notFinite operand

/-! ## Whole evaluations -/

namespace Expression

variable {first running result : Binary64} {before rest : List (Operator × Binary64)}

/-- Nor do further steps, in whatever order items follow. -/
theorem evaluateFrom_failsOrOverflows (notFinite : running.isFinite = false) (items : List Item) :
    FailsOrOverflows (evaluateFrom running items) := by
  fun_induction evaluateFrom running items with
  | case1 running operation operand items value evaluated inductionHypothesis =>
      have stepped := operation.calculate_failsOrOverflows notFinite operand
      rw [evaluated] at stepped
      exact inductionHypothesis stepped.isFinite_eq
  | case2 running operation operand items fault evaluated =>
      have stepped := operation.calculate_failsOrOverflows notFinite operand
      rw [evaluated] at stepped
      exact stepped
  | case3 running items ends => exact .overflows notFinite

/-- The steps behind a beginning start from the value of that beginning, which is thus the running
value there. -/
theorem evaluate_alternating_append (first : Binary64) (before after : List (Operator × Binary64)) :
    evaluate ⟨alternating first (before ++ after)⟩ =
      (evaluate ⟨alternating first before⟩).bind fun running =>
        evaluateFrom running (continuing after) := by
  show evaluateFrom first (continuing (before ++ after)) = _
  rw [continuing, List.flatMap_append]
  exact evaluateFrom_append first before (continuing after)

/-- Whether no step divides by zero and the running value is finite after each. -/
def StaysFinite (first : Binary64) (rest : List (Operator × Binary64)) : Prop :=
  ∀ before, before <+: rest →
    ∃ running, evaluate ⟨alternating first before⟩ = .ok running ∧ running.isFinite = true

/-- A running value that is not finite shows in the value of the whole. -/
theorem evaluate_failsOrOverflows (begins : before <+: rest)
    (reached : evaluate ⟨alternating first before⟩ = .ok running)
    (notFinite : running.isFinite = false) :
    FailsOrOverflows (evaluate ⟨alternating first rest⟩) := by
  obtain ⟨after, rfl⟩ := begins
  rw [evaluate_alternating_append, reached]
  exact evaluateFrom_failsOrOverflows notFinite (continuing after)

theorem staysFinite_of_evaluate (evaluated : evaluate ⟨alternating first rest⟩ = .ok result)
    (isFinite : result.isFinite = true) : StaysFinite first rest := by
  intro before begins
  cases reached : evaluate ⟨alternating first before⟩ with
  | error fault =>
      obtain ⟨after, rfl⟩ := begins
      rw [evaluate_alternating_append, reached] at evaluated
      cases evaluated
  | ok running =>
      refine ⟨running, rfl, ?_⟩
      rw [← Bool.not_eq_false]
      intro notFinite
      have overflowed := evaluate_failsOrOverflows begins reached notFinite
      rw [evaluated] at overflowed
      rw [overflowed.isFinite_eq] at isFinite
      cases isFinite

end Expression

/-! ## Recorded calculations -/

namespace Calculation

/-- A calculation that alternates, with the value of its expression for a result and no step on the
way there that divides by zero or overflows. -/
def IsSound (calculation : Calculation) : Prop :=
  calculation.expression.evaluate = .ok calculation.result ∧
    ∃ first rest, calculation.expression = ⟨Expression.alternating first rest⟩ ∧
      Expression.StaysFinite first rest

end Calculation

namespace Session

open Expression (alternating evaluate)

variable {σ : Type} [KeyValueStore σ] {settings : Settings}

theorem isSound_of_recorded {session after : Session σ} {key : Key} {outcome : Outcome}
    (reachable : Reachable settings session) (pressed : session.press key = .ok (outcome, after))
    {calculation : Calculation}
    (recorded : Turn.recorded ⟨session, key, outcome, after⟩ = some calculation) :
    calculation.IsSound := by
  obtain ⟨entries, inPhase⟩ := reachable.inPhase
  obtain ⟨_, _, encodable, value, whole⟩ := Turn.answered_of_recorded recorded
  obtain ⟨first, rest, closed⟩ := inPhase.alternating value
  have alternates : calculation.expression = ⟨alternating first rest⟩ := whole.trans closed
  have evaluates := (press_advances pressed).2.evaluate_eq recorded
  have isFinite : calculation.result.isFinite = true := (Bool.and_eq_true_iff.mp encodable).1
  refine ⟨evaluates, first, rest, alternates, ?_⟩
  exact Expression.staysFinite_of_evaluate (alternates ▸ evaluates) isFinite

/-- Every calculation that a run records is sound. -/
theorem isSound_of_mem_recorded {session final : Session σ} {keys : List Key}
    {turns : List (Turn σ)} (reachable : Reachable settings session)
    (ran : session.pressAll keys = .ok (turns, final)) {calculation : Calculation}
    (member : calculation ∈ turns.filterMap Turn.recorded) : calculation.IsSound := by
  obtain ⟨turn, turnMember, recorded⟩ := List.mem_filterMap.mp member
  obtain ⟨before, pressed⟩ := reachable.turn ran turn turnMember
  exact isSound_of_recorded before pressed recorded

/-- An overflow cannot be hidden. For any operands: where the running value of an alternating
expression is not finite after some of its steps, the value of the whole is not finite, or a later
step divides by zero. So every calculation that keys append to a history alternates, and after each
of its steps the running value was finite. -/
theorem overflow_shows :
    (∀ (first running : Binary64) (before rest : List (Operator × Binary64)), before <+: rest →
      evaluate ⟨alternating first before⟩ = .ok running →
        running.isFinite = false →
          FailsOrOverflows (evaluate ⟨alternating first rest⟩)) ∧
      ∀ (settings : Settings) (session final : Session σ) (keys : List Key)
        (turns : List (Turn σ)) (appended : List Calculation), Reachable settings session →
          session.pressAll keys = .ok (turns, final) →
            final.history = session.history ++ appended →
              ∀ calculation ∈ appended, calculation.IsSound := by
  constructor
  · intro first running before rest begins reached notFinite
    exact Expression.evaluate_failsOrOverflows begins reached notFinite
  · intro settings session final keys turns appended reachable ran grown calculation member
    rw [history_of_pressAll ran, List.append_cancel_left_eq] at grown
    apply isSound_of_mem_recorded reachable ran
    rw [grown]
    exact member

/-- One divided by three, and the quotient times three. -/
def thirds : Calculation where
  expression := ⟨alternating (.ofNat 1) [(.divide, .ofNat 3), (.multiply, .ofNat 3)]⟩
  result := .ofNat 1

/-- The number `1e308` times ten and divided by ten again, and a session that records thirds. -/
theorem overflow_shows_tenfold :
    (evaluate ⟨alternating (.ofDecimal false 1 308) [(.multiply, .ofNat 10)]⟩ =
        .ok (.infinite false) ∧
      FailsOrOverflows (evaluate
        ⟨alternating (.ofDecimal false 1 308) [(.multiply, .ofNat 10), (.divide, .ofNat 10)]⟩)) ∧
      ∃ turns final,
        (start (σ := MemoryStore) ⟨.empty⟩ .standard).pressAll
          [.digit '1', .operator .divide, .digit '3', .operator .multiply, .digit '3', .equals] =
            .ok (turns, final) ∧
        final.history = [thirds] ∧ thirds.IsSound := by
  have overflowed :
      evaluate ⟨alternating (.ofDecimal false 1 308) [(.multiply, .ofNat 10)]⟩ =
        .ok (.infinite false) := by
    decide +kernel
  have recorded : ((start (σ := MemoryStore) ⟨.empty⟩ .standard).pressAll
      [.digit '1', .operator .divide, .digit '3', .operator .multiply, .digit '3',
        .equals]).toOption.map (fun run => run.2.history) = some [thirds] := by
    decide +kernel
  obtain ⟨shows, sound⟩ := overflow_shows (σ := MemoryStore)
  refine ⟨⟨overflowed, shows _ _ _ _ (List.prefix_append [_] [_]) overflowed rfl⟩, ?_⟩
  cases ran : (start (σ := MemoryStore) ⟨.empty⟩ .standard).pressAll
      [.digit '1', .operator .divide, .digit '3', .operator .multiply, .digit '3', .equals] with
  | error fault =>
      rw [ran] at recorded
      cases recorded
  | ok run =>
      obtain ⟨turns, final⟩ := run
      rw [ran] at recorded
      have history : final.history = [thirds] := Option.some.inj recorded
      exact ⟨turns, final, rfl, history, sound _ _ _ _ _ [thirds] (.fresh _) ran history thirds
        (List.mem_singleton_self thirds)⟩

end Session

end Keypad
