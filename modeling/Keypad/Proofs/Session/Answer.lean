import Keypad.Proofs.Expression.LeftFold
import Keypad.Proofs.Session.Typing

/-!
Contract: from the keys of a calculation to its answer.

Owns:
- the keys that words and operators in turn stand for;
- the expression that they leave behind;
- what the equals key then gives, shows and records.

Does not own: keys in any other order, what the store makes of the record.
-/

namespace Keypad

/-- The keys of a word, and of operators each with a further word. -/
def Word.sequenceKeys (first : Word) (rest : List (Operator × Word)) : List Key :=
  first.keys ++ rest.flatMap fun entry => .operator entry.1 :: entry.2.keys

/-- Operators, each with the value of its word. -/
def Word.operands (rest : List (Operator × Word)) : List (Operator × Binary64) :=
  rest.map fun entry => (entry.1, entry.2.value)

/-- Whether the record of an alternating expression can be stored. -/
theorem Calculation.isEncodable_alternating (first : Binary64)
    (rest : List (Operator × Binary64)) (result : Binary64) :
    Calculation.isEncodable ⟨⟨Expression.alternating first rest⟩, result⟩ =
      (result.isFinite && (first.isFinite && rest.all fun entry => entry.2.isFinite)) := by
  have later : (rest.flatMap fun entry => [Item.operator entry.1, .number entry.2]).all
      Item.isEncodable = rest.all fun entry => entry.2.isFinite := by
    induction rest with
    | nil => rfl
    | cons entry rest inductionHypothesis =>
        rw [List.flatMap_cons, List.all_append, inductionHypothesis, List.all_cons]
        simp [Item.isEncodable]
  unfold Calculation.isEncodable Expression.alternating
  rw [List.all_cons, later]
  rfl

namespace Session

variable {σ : Type} [KeyValueStore σ]

/-- A session that is fresh or has just been cleared. -/
inductive Ready : Session σ → Prop where
  | fresh (store : σ) (settings : Settings) : Ready (start store settings)
  | cleared (earlier : Session σ) : Ready earlier.pressClear

theorem Ready.expression_eq {session : Session σ} (ready : session.Ready) :
    session.expression = .empty := by
  cases ready <;> rfl

/-- A session that begins an operand and shows no error. -/
structure Begins (session : Session σ) : Prop where
  notError : session.state ≠ .error
  display : session.display = zeroText

theorem Ready.begins {session : Session σ} (ready : session.Ready) : session.Begins := by
  cases ready with
  | fresh store settings => exact ⟨by simp [start], rfl⟩
  | cleared earlier => exact ⟨by simp [pressClear], rfl⟩

/-- A session that has collected items since another one: they stand in its expression, the last of
them, a number, still on the display. -/
structure Collects (session collected : Session σ) (items : List Item) : Prop where
  keeps : Keeps session collected
  shown : ∃ value, NumberFormat.parse collected.display = some value ∧
    collected.expression.push (.number value) = ⟨session.expression.items ++ items⟩

omit [KeyValueStore σ] in
theorem Begins.takesOperand {session : Session σ} (begins : session.Begins) :
    session.TakesOperand :=
  ⟨begins.notError, .inr begins.display⟩

omit [KeyValueStore σ] in
/-- The word that was typed is on the display, also when it has no characters. -/
theorem Begins.parse_afterWord {session : Session σ} (begins : session.Begins) (word : Word) :
    NumberFormat.parse (session.afterWord word.characters).display = some word.value := by
  rw [← parse_typedText word]
  unfold afterWord
  split
  next none =>
    rw [List.isEmpty_iff.mp none, begins.display]
    rfl
  · rw [begins.display]
    rfl

omit [KeyValueStore σ] in
theorem Begins.collects_afterWord {session : Session σ} (begins : session.Begins) (word : Word) :
    Collects session (session.afterWord word.characters) [.number word.value] := by
  have kept : Keeps session (session.afterWord word.characters) ∧
      (session.afterWord word.characters).expression = session.expression := by
    unfold afterWord
    split <;> exact ⟨⟨⟨rfl, rfl, rfl⟩, rfl, rfl⟩, rfl⟩
  refine ⟨kept.1, word.value, begins.parse_afterWord word, ?_⟩
  rw [kept.2]
  rfl

omit [KeyValueStore σ] in
/-- An operator closes the operand that is shown, and another one begins. -/
theorem Collects.pressOperator {session collected : Session σ} {items : List Item}
    (collects : Collects session collected items) (operation : Operator) :
    (collected.pressOperator operation).Begins ∧
      Keeps session (collected.pressOperator operation) ∧
      (collected.pressOperator operation).expression.items =
        session.expression.items ++ items ++ [.operator operation] := by
  obtain ⟨value, read, closed⟩ := collects.shown
  have keeps := collects.keeps.trans (keeps_pressOperator collected operation)
  unfold Session.pressOperator at keeps ⊢
  rw [read] at keeps ⊢
  refine ⟨⟨by simp, rfl⟩, keeps, ?_⟩
  dsimp only
  rw [closed]
  rfl

omit [KeyValueStore σ] in
theorem Collects.after {session middle collected : Session σ} {items more : List Item}
    (keeps : Keeps session middle)
    (expression : middle.expression.items = session.expression.items ++ items)
    (collects : Collects middle collected more) : Collects session collected (items ++ more) := by
  obtain ⟨value, read, closed⟩ := collects.shown
  refine ⟨keeps.trans collects.keeps, value, read, ?_⟩
  rw [closed, expression, List.append_assoc]

/-- Typing words and operators in turn collects their values and the operators. -/
theorem Begins.pressAll_sequence {session : Session σ} (begins : session.Begins) (first : Word)
    (rest : List (Operator × Word)) :
    ∃ turns typed, session.pressAll (first.sequenceKeys rest) = .ok (turns, typed) ∧
      Collects session typed (Expression.alternating first.value (Word.operands rest)) := by
  induction rest generalizing session first with
  | nil =>
      obtain ⟨turns, typed⟩ := pressAll_word begins.takesOperand first
      refine ⟨turns, _, ?_, begins.collects_afterWord first⟩
      rw [Word.sequenceKeys, List.flatMap_nil, List.append_nil]
      exact typed
  | cons entry rest inductionHypothesis =>
      obtain ⟨operation, word⟩ := entry
      obtain ⟨firstTurns, typedFirst⟩ := pressAll_word begins.takesOperand first
      obtain ⟨beginsNext, keeps, expression⟩ :=
        (begins.collects_afterWord first).pressOperator operation
      obtain ⟨laterTurns, typed, typedLater, collects⟩ := inductionHypothesis beginsNext word
      have fromOperator := pressAll_cons
        (show (session.afterWord first.characters).press (.operator operation) = _ from rfl)
        typedLater
      refine ⟨_, typed, pressAll_append typedFirst fromOperator, ?_⟩
      rw [List.append_assoc] at expression
      exact Collects.after keeps expression collects

/-- What the equals key gives for collected items. -/
theorem Collects.press_equals {session collected : Session σ} {items : List Item}
    (collects : Collects session collected items) (isEmpty : session.expression = .empty)
    (digits : session.format.maxFractionDigits.toNat ≤ NumberFormat.precisionLimit) :
    ∃ outcome final, collected.press .equals = .ok (outcome, final) ∧
      final.expression = .empty ∧
      (∀ fault, Expression.evaluate ⟨items⟩ = .error fault →
        outcome = .error fault ∧ final.display = session.errorToken ∧ final.state = .error ∧
          final.history = session.history) ∧
      ∀ result, Expression.evaluate ⟨items⟩ = .ok result →
        outcome = .ok (some result) ∧ session.format.format result = .ok final.display ∧
          final.state = .awaitingFirstOperand ∧
          final.history = session.history ++
            if Calculation.isEncodable ⟨⟨items⟩, result⟩ then [⟨⟨items⟩, result⟩] else [] := by
  obtain ⟨value, read, closed⟩ := collects.shown
  rw [isEmpty] at closed
  have wholeExpression : collected.expression.push (.number value) = ⟨items⟩ := closed
  cases evaluated : Expression.evaluate ⟨items⟩ with
  | error fault =>
      have gives : EqualsGives collected (.error fault) collected.showError :=
        .failed read (wholeExpression ▸ evaluated)
      refine ⟨_, _, gives.pressEquals, rfl, ?_, by simp⟩
      rintro _ ⟨⟩
      exact ⟨rfl, collects.keeps.setup.errorToken, rfl, collects.keeps.history⟩
  | ok result =>
      obtain ⟨text, formatted⟩ := format_isOk digits result
      have gives := EqualsGives.answered read (wholeExpression ▸ evaluated)
        (collects.keeps.setup.format ▸ formatted)
      rw [wholeExpression, remember_eq] at gives
      refine ⟨_, _, gives.pressEquals, rfl, by simp, ?_⟩
      rintro _ ⟨⟩
      refine ⟨rfl, formatted, rfl, ?_⟩
      rw [← collects.keeps.history]
      rfl

/-- Pressing words and operators in turn and then equals, in a session that is fresh or has just been
cleared, divides by zero or answers with the left fold of the nearest values to the words' numbers. -/
theorem answer_of_sequence {session : Session σ} (ready : session.Ready)
    (digits : session.format.maxFractionDigits.toNat ≤ NumberFormat.precisionLimit)
    (first : Word) (rest : List (Operator × Word)) :
    ∃ turns typed outcome final,
      session.pressAll (first.sequenceKeys rest) = .ok (turns, typed) ∧
      typed.press .equals = .ok (outcome, final) ∧
      (∀ word ∈ first :: rest.map Prod.snd, Binary64.IsNearest false word.size word.value) ∧
      ((∃ operand ∈ Word.operands rest, operand.1.dividesByZero operand.2 = true) →
        outcome = .error .dividedByZero ∧ final.display = session.errorToken ∧
          final.state = .error ∧ final.history = session.history) ∧
      ((∀ operand ∈ Word.operands rest, operand.1.dividesByZero operand.2 = false) →
        outcome = .ok (some (Expression.leftFold first.value (Word.operands rest))) ∧
          session.format.format (Expression.leftFold first.value (Word.operands rest)) =
            .ok final.display ∧
          final.state = .awaitingFirstOperand ∧
          final.history = session.history ++
            if (Expression.leftFold first.value (Word.operands rest)).isFinite &&
                (first.value.isFinite && (Word.operands rest).all fun operand =>
                  operand.2.isFinite) then
              [⟨⟨Expression.alternating first.value (Word.operands rest)⟩,
                Expression.leftFold first.value (Word.operands rest)⟩]
            else []) ∧
      final.expression = .empty := by
  obtain ⟨turns, typed, typedKeys, collects⟩ := ready.begins.pressAll_sequence first rest
  obtain ⟨outcome, final, pressed, empty, onError, onResult⟩ :=
    collects.press_equals ready.expression_eq digits
  refine ⟨turns, typed, outcome, final, typedKeys, pressed, ?_, ?_, ?_, empty⟩
  · intro word _
    exact word.isNearest_value
  · rintro ⟨operand, member, divides⟩
    apply onError
    rw [Expression.evaluate_alternating, if_pos]
    exact List.any_eq_true.mpr ⟨operand, member, divides⟩
  · intro noneDivides
    rw [← Calculation.isEncodable_alternating]
    apply onResult
    rw [Expression.evaluate_alternating, if_neg]
    rw [Bool.not_eq_true, List.any_eq_false]
    simpa using noneDivides

/-- The keys `07.5 ÷ 2.5.0 + =`: a leading zero, a second point and a missing operand. -/
theorem answer_of_sequence_periods :
    Ready (start (σ := MemoryStore) ⟨.empty⟩ .standard) ∧
      Settings.standard.maxFractionDigits.toNat ≤ NumberFormat.precisionLimit ∧
      ∃ turns typed outcome final,
        (start (σ := MemoryStore) ⟨.empty⟩ .standard).pressAll
          [.digit '0', .digit '7', .period, .digit '5', .operator .divide, .digit '2', .period,
            .digit '5', .period, .digit '0', .operator .add] = .ok (turns, typed) ∧
        typed.press .equals = .ok (outcome, final) ∧
        outcome = .ok (some (.ofNat 3)) ∧
        final.state = .awaitingFirstOperand ∧
        final.expression = .empty := by
  have ready := Ready.fresh (σ := MemoryStore) ⟨.empty⟩ .standard
  obtain ⟨turns, typed, outcome, final, typedKeys, pressed, _, _, answers, empty⟩ :=
    answer_of_sequence ready (by decide) ⟨['0', '7', '.', '5'], by simp [Decimal.point]⟩
      [(.divide, ⟨['2', '.', '5', '.', '0'], by simp [Decimal.point]⟩), (.add, ⟨[], by simp⟩)]
  obtain ⟨answered, _, state, _⟩ := answers (by decide +kernel)
  have three : Expression.leftFold (Word.value ⟨['0', '7', '.', '5'], by simp [Decimal.point]⟩)
      (Word.operands [(.divide, ⟨['2', '.', '5', '.', '0'], by simp [Decimal.point]⟩),
        (.add, ⟨[], by simp⟩)]) = .ofNat 3 := by
    decide +kernel
  rw [three] at answered
  exact ⟨ready, by decide, turns, typed, outcome, final, typedKeys, pressed, answered, state, empty⟩

end Session

end Keypad
