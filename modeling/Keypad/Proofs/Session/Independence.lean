import Keypad.Proofs.Session.Typing

/-!
Contract: the store of a session never shows at its keypad.

Two sessions on different stores are compared key by key. Nothing is asked of the stores: each may
hold what it wants, answer as it wants, and fail whenever it wants.

Owns:
- sessions and turns that nobody at the keypad can tell apart;
- that the same keys keep two such sessions so, and add the same calculations to their histories.

Does not own: what the histories hold at first, what is written to the stores.
-/

namespace Keypad

/-- Two sessions that differ in their store, its slot and their history at most. -/
structure Session.Alike {σ τ : Type} (left : Session σ) (right : Session τ) : Prop where
  expression : right.expression = left.expression
  display : right.display = left.display
  state : right.state = left.state
  format : right.format = left.format
  errorToken : right.errorToken = left.errorToken

/-- Two turns of the same key with the same outcome, after which the same is shown, and which record
the same. -/
structure Turn.Alike {σ τ : Type} (left : Turn σ) (right : Turn τ) : Prop where
  key : right.key = left.key
  outcome : right.outcome = left.outcome
  display : right.after.display = left.after.display
  state : right.after.state = left.after.state
  expression : right.after.expression = left.after.expression
  recorded : right.recorded = left.recorded

/-- Turns that are alike one by one record the same calculations. -/
theorem Turn.Alike.filterMap_recorded {σ τ : Type} {left : List (Turn σ)} {right : List (Turn τ)}
    (alike : List.Forall₂ Turn.Alike left right) :
    right.filterMap Turn.recorded = left.filterMap Turn.recorded := by
  induction alike with
  | nil => rfl
  | cons first _ inductionHypothesis =>
      rw [List.filterMap_cons, List.filterMap_cons, first.recorded, inductionHypothesis]

namespace Session

variable {σ τ : Type} {left leftAfter : Session σ} {right rightAfter : Session τ}

theorem Alike.pressDigitOrPeriod (alike : Alike left right) (character : Char) :
    Alike (left.pressDigitOrPeriod character) (right.pressDigitOrPeriod character) := by
  have sameText : right.operandText = left.operandText := by
    unfold operandText
    rw [alike.state, alike.display]
  rw [pressDigitOrPeriod_eq, pressDigitOrPeriod_eq, alike.state, sameText]
  split
  · exact ⟨alike.expression, rfl, rfl, alike.format, alike.errorToken⟩
  · exact alike

theorem Alike.pressOperator (alike : Alike left right) (operation : Operator) :
    Alike (left.pressOperator operation) (right.pressOperator operation) := by
  cases read : NumberFormat.parse left.display with
  | none =>
      unfold Session.pressOperator
      rw [alike.display, read]
      exact alike
  | some value =>
      rw [pressOperator_of_parse read, pressOperator_of_parse (alike.display ▸ read)]
      refine ⟨?_, rfl, rfl, alike.format, alike.errorToken⟩
      dsimp only
      rw [alike.expression]

theorem Alike.recorded (alike : Alike left right) (key : Key) (outcome : Outcome) :
    Turn.recorded ⟨right, key, outcome, rightAfter⟩ =
      Turn.recorded ⟨left, key, outcome, leftAfter⟩ := by
  unfold Turn.recorded
  rw [alike.display, alike.expression]

variable [KeyValueStore σ] [KeyValueStore τ]

theorem Alike.remember (alike : Alike left right) (calculation : Calculation) :
    Alike (left.remember calculation) (right.remember calculation) := by
  rw [remember_eq left, remember_eq right]
  exact ⟨alike.expression, alike.display, alike.state, alike.format, alike.errorToken⟩

/-- Whatever the equals key does to one of two such sessions, it does to the other. -/
theorem Alike.equalsGives {outcome : Outcome} (alike : Alike left right)
    (gives : EqualsGives left outcome leftAfter) :
    ∃ rightAfter, EqualsGives right outcome rightAfter ∧ Alike leftAfter rightAfter := by
  have evaluatesSame : ∀ value,
      (right.expression.push (.number value)).evaluate =
        (left.expression.push (.number value)).evaluate := by
    intro value
    rw [alike.expression]
  cases gives with
  | ignored unreadable => exact ⟨right, .ignored (alike.display ▸ unreadable), alike⟩
  | failed read evaluated =>
      rw [← alike.display] at read
      rw [← evaluatesSame] at evaluated
      exact ⟨right.showError, .failed read evaluated, rfl, alike.errorToken, rfl, alike.format,
        alike.errorToken⟩
  | answered read evaluated formatted =>
      next value result text =>
      have shown : Alike (left.showResult text) (right.showResult text) :=
        ⟨rfl, rfl, rfl, alike.format, alike.errorToken⟩
      rw [← alike.display] at read
      rw [← evaluatesSame] at evaluated
      rw [← alike.format] at formatted
      refine ⟨_, .answered read evaluated formatted, ?_⟩
      rw [alike.expression]
      exact shown.remember _

/-- One key. -/
theorem Alike.press {key : Key} {outcome : Outcome} (alike : Alike left right)
    (pressed : left.press key = .ok (outcome, leftAfter)) :
    ∃ rightAfter, right.press key = .ok (outcome, rightAfter) ∧ Alike leftAfter rightAfter := by
  cases key with
  | digit character =>
      cases pressed
      exact ⟨_, rfl, alike.pressDigitOrPeriod character⟩
  | period =>
      cases pressed
      exact ⟨_, rfl, alike.pressDigitOrPeriod Decimal.point⟩
  | operator operation =>
      cases pressed
      exact ⟨_, rfl, alike.pressOperator operation⟩
  | equals =>
      obtain ⟨rightAfter, gives, afterAlike⟩ :=
        alike.equalsGives (equalsGives_of_pressEquals pressed)
      exact ⟨rightAfter, gives.pressEquals, afterAlike⟩
  | clear =>
      cases pressed
      exact ⟨_, rfl, rfl, rfl, rfl, alike.format, alike.errorToken⟩

/-- Any keys. -/
theorem Alike.pressAll {keys : List Key} {leftTurns : List (Turn σ)} {leftFinal : Session σ}
    (alike : Alike left right) (ran : left.pressAll keys = .ok (leftTurns, leftFinal)) :
    ∃ rightTurns rightFinal, right.pressAll keys = .ok (rightTurns, rightFinal) ∧
      List.Forall₂ Turn.Alike leftTurns rightTurns := by
  induction keys generalizing left right leftTurns with
  | nil =>
      cases ran
      exact ⟨[], right, rfl, .nil⟩
  | cons key keys inductionHypothesis =>
      obtain ⟨outcome, leftAfter, leftLater, pressed, ranLater, rfl⟩ := exists_of_pressAll_cons ran
      obtain ⟨rightAfter, rightPressed, afterAlike⟩ := alike.press pressed
      obtain ⟨rightLater, rightFinal, rightRan, laterAlike⟩ :=
        inductionHypothesis afterAlike ranLater
      refine ⟨_, rightFinal, pressAll_cons rightPressed rightRan, .cons ?_ laterAlike⟩
      exact ⟨rfl, rfl, afterAlike.display, afterAlike.state, afterAlike.expression,
        alike.recorded key outcome⟩

/-- Whatever two stores hold and however they fail, sessions started on them with the same settings
answer the same keys with the same outcomes, show the same after each of them, and add the same
calculations to the histories that they loaded. -/
theorem start_alike (left : σ) (right : τ) (settings : Settings)
    (digits : settings.maxFractionDigits.toNat ≤ NumberFormat.precisionLimit)
    (keys : List Key) :
    ∃ leftTurns leftFinal rightTurns rightFinal added,
      (start left settings).pressAll keys = .ok (leftTurns, leftFinal) ∧
      (start right settings).pressAll keys = .ok (rightTurns, rightFinal) ∧
      List.Forall₂ Turn.Alike leftTurns rightTurns ∧
      leftFinal.history = History.load left settings.historySlot ++ added ∧
      rightFinal.history = History.load right settings.historySlot ++ added := by
  have alike : Alike (start left settings) (start right settings) := ⟨rfl, rfl, rfl, rfl, rfl⟩
  obtain ⟨leftTurns, leftFinal, leftRan⟩ := pressAll_isOk (start left settings) digits keys
  obtain ⟨rightTurns, rightFinal, rightRan, turnsAlike⟩ := alike.pressAll leftRan
  refine ⟨leftTurns, leftFinal, rightTurns, rightFinal, leftTurns.filterMap Turn.recorded, leftRan,
    rightRan, turnsAlike, history_of_pressAll leftRan, ?_⟩
  rw [← Turn.Alike.filterMap_recorded turnsAlike]
  exact history_of_pressAll rightRan

/-- A store that holds a calculation, and one that always fails. -/
theorem start_alike_unavailable :
    Settings.standard.maxFractionDigits.toNat ≤ NumberFormat.precisionLimit ∧
      ∃ (held : MemoryStore) (leftTurns : List (Turn MemoryStore)) (leftFinal : Session MemoryStore)
        (rightTurns : List (Turn Store)) (rightFinal : Session Store)
        (added : List Calculation),
        (start held .standard).pressAll
            [.digit '1', .operator .divide, .digit '0', .equals, .clear, .digit '2', .equals] =
          .ok (leftTurns, leftFinal) ∧
        (start (Store.unavailable "broken") .standard).pressAll
            [.digit '1', .operator .divide, .digit '0', .equals, .clear, .digit '2', .equals] =
          .ok (rightTurns, rightFinal) ∧
        List.Forall₂ Turn.Alike leftTurns rightTurns ∧
        leftFinal.history = [⟨⟨[.number .zero]⟩, .zero⟩] ++ added ∧
        rightFinal.history = [] ++ added := by
  have digits : Settings.standard.maxFractionDigits.toNat ≤ NumberFormat.precisionLimit := by
    decide
  have holds : ∃ held : MemoryStore,
      History.load held Settings.standard.historySlot = [⟨⟨[.number .zero]⟩, .zero⟩] := by
    refine ⟨⟨Slots.empty.insert History.defaultSlot
      (String.ofList (encodeHistory [⟨⟨[.number .zero]⟩, .zero⟩]))⟩, ?_⟩
    decide +kernel
  obtain ⟨held, loaded⟩ := holds
  obtain ⟨leftTurns, leftFinal, rightTurns, rightFinal, added, leftRan, rightRan, alike, leftHistory,
      rightHistory⟩ :=
    start_alike held (Store.unavailable "broken") .standard digits
      [.digit '1', .operator .divide, .digit '0', .equals, .clear, .digit '2', .equals]
  rw [loaded] at leftHistory
  exact ⟨digits, held, leftTurns, leftFinal, rightTurns, rightFinal, added, leftRan, rightRan, alike,
    leftHistory, rightHistory⟩

end Session

end Keypad
