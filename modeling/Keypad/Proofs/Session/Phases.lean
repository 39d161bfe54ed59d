import Keypad.Proofs.Expression.LeftFold
import Keypad.Proofs.Session.Typing

/-!
Contract: the state of input fits the display and the expression in every session that keys lead to.

Owns:
- the texts of operands under construction, and that they can be read;
- what holds in each state of input, whatever key is pressed and whatever the error token is;
- that the equals key always evaluates an alternating expression;
- which keys are ignored while an error is shown, which depends on the error token.

Does not own: the values of operands, results.
-/

namespace Keypad

/-! ## Expressions under construction -/

namespace Expression

/-- Operands, each with the operator behind it: what stands in an expression before its next
operand. -/
def pending (entries : List (Binary64 × Operator)) : List Item :=
  entries.flatMap fun entry => [.number entry.1, .operator entry.2]

theorem pending_append (entries : List (Binary64 × Operator)) (value : Binary64)
    (operation : Operator) :
    pending (entries ++ [(value, operation)]) =
      pending entries ++ [.number value, .operator operation] := by
  unfold pending
  rw [List.flatMap_append, List.flatMap_singleton]

/-- With one more operand, an expression under construction alternates. -/
theorem exists_alternating (entries : List (Binary64 × Operator)) (value : Binary64) :
    ∃ first rest, pending entries ++ [.number value] = alternating first rest := by
  induction entries with
  | nil => exact ⟨value, [], rfl⟩
  | cons entry entries inductionHypothesis =>
      obtain ⟨first, rest, closed⟩ := inductionHypothesis
      refine ⟨entry.1, (entry.2, first) :: rest, ?_⟩
      unfold pending at closed ⊢
      rw [List.flatMap_cons, List.append_assoc, closed]
      rfl

end Expression

namespace Session

open Decimal NumberFormat

/-! ## Operands under construction -/

/-- Digits without an idle zero before them. -/
structure IsWhole (digits : List Char) : Prop where
  isDigits : Json.IsDigits digits
  leading : digits = ['0'] ∨ digits.head? ≠ some '0'

/-- A text of an operand: a whole part, and behind a point any digits, or none. -/
inductive IsOperandText : List Char → Prop where
  | whole {digits : List Char} (isWhole : IsWhole digits) : IsOperandText digits
  | pointed {digits fraction : List Char} (isWhole : IsWhole digits)
      (all : ∀ digit ∈ fraction, digit.isDigit = true) :
      IsOperandText (digits ++ Decimal.point :: fraction)

theorem isOperandText_zero : IsOperandText zeroText.toList := .whole ⟨Json.isDigits_zero, .inl rfl⟩

/-- A digit replaces a lone zero, so no idle zero comes to stand before another digit. -/
theorem IsWhole.typeCharacter {display : String} (isWhole : IsWhole display.toList)
    {character : Char} (isDigit : character.isDigit = true) :
    IsWhole (typeCharacter display character).toList := by
  rw [toList_typeCharacter_digit display isDigit]
  by_cases isZero : display = zeroText
  · rw [if_pos isZero]
    refine ⟨⟨by simp, by simpa using isDigit⟩, ?_⟩
    by_cases zeroDigit : character = '0' <;> simp [zeroDigit]
  · have notLone : display.toList ≠ ['0'] := by
      intro lone
      exact isZero (String.toList_inj.mp lone)
    rw [if_neg isZero]
    refine ⟨(isWhole.isDigits.append (by simpa using isDigit)).1, .inr ?_⟩
    rw [List.head?_append_of_ne_nil _ isWhole.isDigits.nonempty]
    exact isWhole.leading.resolve_left notLone

/-- One more character of an operand leaves a text of an operand. -/
theorem IsOperandText.typeCharacter {display : String} {character : Char}
    (operand : IsOperandText display.toList)
    (typable : character.isDigit = true ∨ character = Decimal.point) :
    IsOperandText (typeCharacter display character).toList := by
  generalize displayed : display.toList = text at operand
  cases operand with
  | whole isWhole =>
      subst displayed
      rcases typable with isDigit | rfl
      · exact .whole (isWhole.typeCharacter isDigit)
      · have noPoint : Decimal.point ∉ display.toList :=
          fun member => isDigit_ne_point (isWhole.isDigits.all _ member) rfl
        rw [toList_typeCharacter_point, if_neg noPoint]
        exact .pointed isWhole (List.forall_mem_nil _)
  | pointed isWhole all =>
      have hasPoint : Decimal.point ∈ display.toList := by simp [displayed]
      have notZero : display ≠ zeroText := by
        rintro rfl
        exact absurd hasPoint (by decide)
      rcases typable with isDigit | rfl
      · rw [toList_typeCharacter_digit display isDigit, if_neg notZero, displayed,
          List.append_assoc, List.cons_append]
        refine .pointed isWhole ?_
        rw [List.forall_mem_append, List.forall_mem_singleton]
        exact ⟨all, isDigit⟩
      · rw [toList_typeCharacter_point, if_pos hasPoint, displayed]
        exact .pointed isWhole all

theorem IsOperandText.parse {display : String} (operand : IsOperandText display.toList) :
    ∃ value, NumberFormat.parse display = some value := by
  rw [← String.ofList_toList (s := display)]
  generalize display.toList = text at operand ⊢
  cases operand with
  | whole isWhole =>
      rw [← List.append_nil text, parse_digits isWhole.isDigits, List.append_nil,
        ofPositional?_whole isWhole.isDigits]
      exact ⟨_, rfl⟩
  | pointed isWhole all =>
      rw [parse_digits isWhole.isDigits,
        ofPositional?_pointed isWhole.isDigits.all all (by simp [isWhole.isDigits.nonempty])]
      exact ⟨_, rfl⟩

/-! ## Phases -/

variable {σ : Type}

/-- How the state of input, the display and the expression of a session fit together, where the
expression holds the given operands and operators. -/
structure InPhase (session : Session σ) (entries : List (Binary64 × Operator)) : Prop where
  items : session.expression.items = Expression.pending entries
  firstOperand : session.state = .awaitingFirstOperand → entries = []
  operator : session.state = .awaitingOperator → IsOperandText session.display.toList
  operand : session.state = .awaitingOperand → entries ≠ [] ∧ session.display = zeroText
  error : session.state = .error → entries = [] ∧ session.display = session.errorToken

variable {session : Session σ} {entries : List (Binary64 × Operator)}

/-- A session without items that begins its first operand, whatever it shows. -/
theorem inPhase_nil (isEmpty : session.expression = .empty)
    (state : session.state = .awaitingFirstOperand) : InPhase session [] where
  items := by rw [isEmpty]; rfl
  firstOperand := fun _ => rfl
  operator := by simp [state]
  operand := by simp [state]
  error := by simp [state]

theorem inPhase_showError (session : Session σ) : InPhase session.showError [] where
  items := rfl
  firstOperand := fun _ => rfl
  operator := by simp [showError]
  operand := by simp [showError]
  error := fun _ => ⟨rfl, rfl⟩

/-- What a digit or period goes on from is always a text of an operand: results and error tokens,
which need not be, are replaced. -/
theorem InPhase.isOperandText (inPhase : InPhase session entries) :
    IsOperandText session.operandText.toList := by
  unfold operandText
  split
  next continues => exact inPhase.operator continues
  · exact isOperandText_zero

theorem pressDigitOrPeriod_of_error (failed : session.state = .error) (character : Char) :
    session.pressDigitOrPeriod character = session := by
  unfold pressDigitOrPeriod
  rw [if_pos failed]

theorem InPhase.pressDigitOrPeriod (inPhase : InPhase session entries) (character : Char) :
    InPhase (session.pressDigitOrPeriod character) entries := by
  rw [pressDigitOrPeriod_eq]
  split
  next taken =>
    refine ⟨inPhase.items, ?_, fun _ => inPhase.isOperandText.typeCharacter taken.2, ?_, ?_⟩
    all_goals
      intro other
      cases other
  · exact inPhase

theorem InPhase.pressOperator_of_parse (inPhase : InPhase session entries) {value : Binary64}
    (read : NumberFormat.parse session.display = some value) (operation : Operator) :
    InPhase (session.pressOperator operation) (entries ++ [(value, operation)]) := by
  rw [Session.pressOperator_of_parse read]
  refine ⟨?_, ?_, ?_, fun _ => ⟨by simp, rfl⟩, ?_⟩
  · rw [Expression.pending_append, ← inPhase.items]
    simp [Expression.push]
  all_goals
    intro other
    cases other

theorem InPhase.pressOperator (inPhase : InPhase session entries) (operation : Operator) :
    ∃ more, InPhase (session.pressOperator operation) more := by
  cases read : NumberFormat.parse session.display with
  | none =>
      unfold Session.pressOperator
      rw [read]
      exact ⟨entries, inPhase⟩
  | some value => exact ⟨_, inPhase.pressOperator_of_parse read operation⟩

/-- The expression that the equals key evaluates alternates. -/
theorem InPhase.alternating (inPhase : InPhase session entries) (value : Binary64) :
    ∃ first rest, session.expression.push (.number value) =
      ⟨Expression.alternating first rest⟩ := by
  obtain ⟨first, rest, closed⟩ := Expression.exists_alternating entries value
  refine ⟨first, rest, ?_⟩
  unfold Expression.push
  rw [inPhase.items, closed]

variable [KeyValueStore σ]

theorem InPhase.equals (inPhase : InPhase session entries) {outcome : Outcome}
    {after : Session σ} (gives : EqualsGives session outcome after) :
    ∃ more, InPhase after more := by
  cases gives with
  | ignored unreadable => exact ⟨entries, inPhase⟩
  | failed read evaluated => exact ⟨[], inPhase_showError session⟩
  | answered read evaluated formatted =>
      refine ⟨[], inPhase_nil ?_ ?_⟩
      all_goals
        rw [remember_eq]
        rfl

/-- Every key leaves the state of input fitting. -/
theorem InPhase.press (inPhase : InPhase session entries) {key : Key} {outcome : Outcome}
    {after : Session σ} (pressed : session.press key = .ok (outcome, after)) :
    ∃ more, InPhase after more := by
  cases key with
  | digit character =>
      cases pressed
      exact ⟨entries, inPhase.pressDigitOrPeriod character⟩
  | period =>
      cases pressed
      exact ⟨entries, inPhase.pressDigitOrPeriod Decimal.point⟩
  | operator operation =>
      cases pressed
      exact inPhase.pressOperator operation
  | equals => exact inPhase.equals (equalsGives_of_pressEquals pressed)
  | clear =>
      cases pressed
      exact ⟨[], inPhase_nil rfl rfl⟩

theorem Reachable.inPhase {settings : Settings} (reachable : Reachable settings session) :
    ∃ entries, InPhase session entries := by
  induction reachable with
  | fresh store => exact ⟨[], inPhase_nil rfl rfl⟩
  | pressed _ press inductionHypothesis =>
      obtain ⟨entries, inPhase⟩ := inductionHypothesis
      exact inPhase.press press

omit [KeyValueStore σ] in
/-- An operator behind an operand that can be read is taken with it. -/
theorem InPhase.takesOperator (inPhase : InPhase session entries) {value : Binary64}
    (read : NumberFormat.parse session.display = some value) (operation : Operator) :
    (session.pressOperator operation).expression.items =
        Expression.pending (entries ++ [(value, operation)]) ∧
      (session.pressOperator operation).state = .awaitingOperand := by
  refine ⟨(inPhase.pressOperator_of_parse read operation).items, ?_⟩
  rw [Session.pressOperator_of_parse read]

/-- The equals key is not ignored where the display can be read. -/
theorem ne_none_of_parse {value : Binary64}
    (read : NumberFormat.parse session.display = some value) {outcome : Outcome}
    {after : Session σ} (pressed : session.pressEquals = .ok (outcome, after)) :
    outcome ≠ .ok none := by
  cases equalsGives_of_pressEquals pressed with
  | ignored unreadable =>
      rw [unreadable] at read
      cases read
  | failed read evaluated => simp
  | answered read evaluated formatted => simp

/-- In every session that keys lead to, whatever the settings and the store: the expression is a
sequence of operands, each with its operator. There is none before the first operand and while an
error is shown, which the error token does; there is one, and a zero is shown, before a further
operand. While an operand is typed, its text is one that can be read, so that neither an operator nor
equals is ignored. What equals evaluates therefore alternates, to its end. -/
theorem state_fits_of_reachable {settings : Settings} (reachable : Reachable settings session) :
    ∃ entries : List (Binary64 × Operator),
      session.expression.items = Expression.pending entries ∧
      (session.state = .awaitingFirstOperand → entries = []) ∧
      (session.state = .error → entries = [] ∧ session.display = settings.errorToken) ∧
      (session.state = .awaitingOperand → entries ≠ [] ∧ session.display = zeroText) ∧
      (session.state = .awaitingOperator →
        IsOperandText session.display.toList ∧
        ∃ value, NumberFormat.parse session.display = some value ∧
          (∀ operation,
            (session.pressOperator operation).expression.items =
                Expression.pending (entries ++ [(value, operation)]) ∧
              (session.pressOperator operation).state = .awaitingOperand) ∧
          ∀ outcome after, session.pressEquals = .ok (outcome, after) → outcome ≠ .ok none) ∧
      ∀ value, NumberFormat.parse session.display = some value →
        ∃ first rest,
          session.expression.push (.number value) = ⟨Expression.alternating first rest⟩ ∧
          (session.expression.push (.number value)).evaluate =
            if rest.any fun entry => entry.1.dividesByZero entry.2 then .error .dividedByZero
            else .ok (Expression.leftFold first rest) := by
  obtain ⟨entries, inPhase⟩ := reachable.inPhase
  refine ⟨entries, inPhase.items, inPhase.firstOperand, ?_, inPhase.operand, ?_, ?_⟩
  · intro isError
    obtain ⟨isEmpty, displayed⟩ := inPhase.error isError
    exact ⟨isEmpty, displayed.trans reachable.setup.2.2⟩
  · intro isTyped
    have operand := inPhase.operator isTyped
    obtain ⟨value, read⟩ := operand.parse
    exact ⟨operand, value, read, inPhase.takesOperator read, fun _ _ => ne_none_of_parse read⟩
  · intro value _
    obtain ⟨first, rest, closed⟩ := inPhase.alternating value
    refine ⟨first, rest, closed, ?_⟩
    rw [closed, Expression.evaluate_alternating]

/-- The keys `2 + 0 .`: a leading zero that stays, and a point without digits behind it. -/
theorem state_fits_of_reachable_point :
    ∃ session : Session MemoryStore, Reachable .standard session ∧
      session.state = .awaitingOperator ∧ session.display = "0." ∧
      ∃ entries, session.expression.items = Expression.pending entries ∧
        IsOperandText session.display.toList ∧
        ∃ value, NumberFormat.parse session.display = some value := by
  have ran : (start (σ := MemoryStore) ⟨.empty⟩ .standard).pressAll
      [.digit '2', .operator .add, .digit '0', .period] = .ok (_, _) := rfl
  have reachable := (Reachable.fresh _).pressAll ran
  obtain ⟨entries, items, _, _, _, typed, _⟩ := state_fits_of_reachable reachable
  obtain ⟨operand, value, read, _⟩ := typed (by decide +kernel)
  exact ⟨_, reachable, by decide +kernel, by decide +kernel, entries, items, operand, value, read⟩

/-! ## While an error is shown -/

/-- An error token that is a number is taken for an operand. -/
theorem InPhase.takesErrorToken (inPhase : InPhase session entries) (failed : session.state = .error)
    {value : Binary64} (read : NumberFormat.parse session.errorToken = some value)
    (operation : Operator) :
    session.press (.operator operation) = .ok (.ok none,
      { session with
        expression := ⟨[.number value, .operator operation]⟩
        display := zeroText
        state := .awaitingOperand }) := by
  obtain ⟨isEmpty, displayed⟩ := inPhase.error failed
  have noItems : session.expression = ⟨[]⟩ := by
    have items := inPhase.items
    rw [isEmpty] at items
    exact congrArg Expression.mk items
  rw [Session.press, Session.pressOperator_of_parse (displayed ▸ read), noItems]
  rfl

theorem InPhase.press_operator_ne (inPhase : InPhase session entries)
    (failed : session.state = .error) {value : Binary64}
    (read : NumberFormat.parse session.errorToken = some value) (operation : Operator) :
    session.press (.operator operation) ≠ .ok (.ok none, session) := by
  intro same
  rw [inPhase.takesErrorToken failed read] at same
  have sameState := congrArg (fun result => result.map fun step => step.2.state) same
  simp [Except.map, failed] at sameState

/-- An error token that is no number stays, whatever key other than clear is pressed. -/
theorem press_of_unreadable (failed : session.state = .error)
    (unreadable : NumberFormat.parse session.display = none) {key : Key} (other : key ≠ .clear) :
    session.press key = .ok (.ok none, session) := by
  cases key with
  | digit character => rw [Session.press, pressDigitOrPeriod_of_error failed]
  | period => rw [Session.press, pressDigitOrPeriod_of_error failed]
  | operator operation => rw [Session.press, Session.pressOperator, unreadable]
  | equals => exact (EqualsGives.ignored unreadable).pressEquals
  | clear => exact absurd rfl other

/-- While an error is shown, digits and the period are always ignored. The other keys but clear are
ignored, and nothing at all changes, exactly when the error token is no number; else an operator takes
the token for the first operand of a new expression. -/
theorem error_stays_iff_of_reachable {settings : Settings} (reachable : Reachable settings session)
    (failed : session.state = .error) :
    (∀ character, session.press (.digit character) = .ok (.ok none, session)) ∧
      session.press .period = .ok (.ok none, session) ∧
      ((∀ key, key ≠ .clear → session.press key = .ok (.ok none, session)) ↔
        NumberFormat.parse settings.errorToken = none) ∧
      ∀ value, NumberFormat.parse settings.errorToken = some value → ∀ operation,
        session.press (.operator operation) = .ok (.ok none,
          { session with
            expression := ⟨[.number value, .operator operation]⟩
            display := zeroText
            state := .awaitingOperand }) := by
  obtain ⟨entries, inPhase⟩ := reachable.inPhase
  obtain ⟨_, displayed⟩ := inPhase.error failed
  have token := reachable.setup.2.2
  have takesToken : ∀ value, NumberFormat.parse settings.errorToken = some value →
      ∀ operation, session.press (.operator operation) = .ok (.ok none, _) :=
    fun value read => inPhase.takesErrorToken failed (token ▸ read)
  refine ⟨fun character => ?_, ?_, ⟨fun stays => ?_, fun unreadable key other => ?_⟩, takesToken⟩
  · rw [Session.press, pressDigitOrPeriod_of_error failed]
  · rw [Session.press, pressDigitOrPeriod_of_error failed]
  · cases read : NumberFormat.parse settings.errorToken with
    | none => rfl
    | some value =>
        have unchanged := stays (.operator .add) (by simp)
        exact absurd unchanged (inPhase.press_operator_ne failed (token ▸ read) .add)
  · refine press_of_unreadable failed ?_ other
    rw [displayed, token]
    exact unreadable

/-- Whatever the settings, the keys `÷ =` lead to an error, since both operands left out are zero. -/
theorem exists_reachable_error (settings : Settings) :
    ∃ session : Session MemoryStore, Reachable settings session ∧ session.state = .error := by
  have waits : ∃ waiting : Session MemoryStore, Reachable settings waiting ∧
      waiting.display = zeroText ∧
      waiting.expression = ⟨[.number .zero, .operator .divide]⟩ := by
    refine ⟨_, (Reachable.fresh .empty).pressed
      (show Session.press _ (.operator .divide) = _ from rfl), ?_, ?_⟩
    · exact congrArg Session.display (pressOperator_of_parse parse_zeroText .divide)
    · exact congrArg Session.expression (pressOperator_of_parse parse_zeroText .divide)
  obtain ⟨waiting, reachable, displayed, items⟩ := waits
  have gives : EqualsGives waiting (.error .dividedByZero) waiting.showError := by
    refine .failed (displayed ▸ parse_zeroText) ?_
    rw [items]
    rfl
  exact ⟨_, reachable.pressed (show waiting.press .equals = _ from gives.pressEquals), rfl⟩

/-- The standard error token stays until it is cleared. -/
theorem error_stays_iff_of_reachable_standard :
    ∃ session : Session MemoryStore, Reachable .standard session ∧ session.state = .error ∧
      ∀ key, key ≠ .clear → session.press key = .ok (.ok none, session) := by
  obtain ⟨session, reachable, failed⟩ := exists_reachable_error .standard
  obtain ⟨_, _, stays, _⟩ := error_stays_iff_of_reachable reachable failed
  exact ⟨session, reachable, failed, stays.mpr rfl⟩

/-- An error is not shown until it is cleared when the error token is `5`. -/
theorem not_error_stays_five :
    ¬∀ (settings : Settings) (session : Session MemoryStore), Reachable settings session →
      session.state = .error → ∀ key, key ≠ .clear →
        session.press key = .ok (.ok none, session) := by
  intro stays
  obtain ⟨session, reachable, failed⟩ :=
    exists_reachable_error { Settings.standard with errorToken := "5" }
  obtain ⟨entries, inPhase⟩ := reachable.inPhase
  have read : NumberFormat.parse session.errorToken = some (.ofNat 5) := by
    rw [reachable.setup.2.2]
    decide +kernel
  apply inPhase.press_operator_ne failed read .add
  exact stays _ session reachable failed (.operator .add) (by simp)

end Session

end Keypad
