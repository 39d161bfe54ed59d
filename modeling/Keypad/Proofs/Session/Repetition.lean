import Keypad.Proofs.Number.Display
import Keypad.Proofs.Session.Run

/-!
Contract: equals pressed again after a result.

Owns:
- sessions whose display is shown again for the value that is read from it;
- that equals leads to such a session whenever it gives a value, and then leaves the display alone,
  however often it is pressed.

Does not own: other keys, what the history takes.
-/

namespace Keypad

/-- The words for what is not finite are no numbers. -/
theorem NumberFormat.parse_format_isSome {numberFormat : NumberFormat} {value : Binary64}
    {text : String} (formatted : numberFormat.format value = .ok text) :
    (parse text).isSome = value.isFinite := by
  cases value with
  | nan =>
      cases formatted
      decide
  | infinite negative =>
      cases formatted
      cases negative <;> decide
  | finite negative magnitude =>
      obtain ⟨shown, read, _⟩ := format_of_parse rfl formatted
      rw [read]
      rfl

namespace Session

variable {σ : Type} {session after : Session σ}

/-- A session without items that shows the value of its display as it does. -/
structure Settled (session : Session σ) : Prop where
  expression : session.expression = .empty
  again : ∀ value, NumberFormat.parse session.display = some value →
    session.format.format value = .ok session.display

/-- What is shown of a result is shown again. -/
theorem settled_of_format {result : Binary64} (isEmpty : session.expression = .empty)
    (formatted : session.format.format result = .ok session.display) : session.Settled := by
  refine ⟨isEmpty, fun value read => ?_⟩
  have finite := NumberFormat.parse_format_isSome formatted
  rw [read] at finite
  obtain ⟨shown, shownRead, _, again⟩ := NumberFormat.format_of_parse finite.symm formatted
  rw [read] at shownRead
  cases shownRead
  exact again

variable [KeyValueStore σ]

theorem settled_of_pressEquals {before : Session σ} {result : Binary64}
    (answered : before.pressEquals = .ok (.ok (some result), session)) :
    session.Settled ∧ (NumberFormat.parse session.display).isSome = result.isFinite := by
  cases equalsGives_of_pressEquals answered with
  | answered read evaluated formatted =>
      rw [remember_eq]
      exact ⟨settled_of_format rfl formatted, NumberFormat.parse_format_isSome formatted⟩

/-- In a settled session equals answers with what is read from the display, if that is a number, and
nothing that is shown changes. -/
theorem Settled.press_equals (settled : session.Settled) :
    ∃ after, session.press .equals = .ok (.ok (NumberFormat.parse session.display), after) ∧
      after.display = session.display ∧ after.Settled := by
  cases read : NumberFormat.parse session.display with
  | none => exact ⟨session, (EqualsGives.ignored read).pressEquals, rfl, settled⟩
  | some value =>
      have evaluated : (session.expression.push (.number value)).evaluate = .ok value := by
        rw [settled.expression]
        rfl
      have formatted := settled.again value read
      refine ⟨_, (EqualsGives.answered read evaluated formatted).pressEquals, ?_, ?_⟩
      · rw [remember_eq]
        rfl
      · rw [remember_eq]
        exact settled_of_format rfl formatted

/-- However often equals is pressed in a settled session. -/
theorem Settled.pressAll_equals (settled : session.Settled) (count : Nat) :
    ∃ turns final, session.pressAll (List.replicate count .equals) = .ok (turns, final) ∧
      final.display = session.display ∧
      ∀ turn ∈ turns, turn.outcome = .ok (NumberFormat.parse session.display) ∧
        turn.after.display = session.display := by
  induction count generalizing session with
  | zero => exact ⟨[], session, rfl, rfl, by simp⟩
  | succ count inductionHypothesis =>
      obtain ⟨after, pressed, displayed, afterSettled⟩ := settled.press_equals
      obtain ⟨turns, final, ran, finalDisplayed, stays⟩ := inductionHypothesis afterSettled
      rw [displayed] at finalDisplayed stays
      refine ⟨_, final, pressAll_cons pressed ran, finalDisplayed, ?_⟩
      rw [List.forall_mem_cons]
      exact ⟨⟨rfl, displayed⟩, stays⟩

/-- After equals has given a value, further equals keys leave the display as it is, and each of them
answers with the value that is read from it, which is one exactly when the result was finite: what is
shown of a finite value is read as a finite value of which the same is shown. -/
theorem display_stays_of_equals {before : Session σ} {result : Binary64}
    (digits : before.format.maxFractionDigits.toNat ≤ NumberFormat.precisionLimit)
    (answered : before.pressEquals = .ok (.ok (some result), session)) (count : Nat) :
    (∃ turns final, session.pressAll (List.replicate count .equals) = .ok (turns, final) ∧
      final.display = session.display ∧
      ∀ turn ∈ turns, turn.outcome = .ok (NumberFormat.parse session.display) ∧
        turn.after.display = session.display) ∧
      (NumberFormat.parse session.display).isSome = result.isFinite ∧
      ∀ value, value.isFinite = true → ∃ text shown, before.format.format value = .ok text ∧
        NumberFormat.parse text = some shown ∧ shown.isFinite = true ∧
        before.format.format shown = .ok text := by
  obtain ⟨settled, readable⟩ := settled_of_pressEquals answered
  refine ⟨settled.pressAll_equals count, readable, fun value finite => ?_⟩
  obtain ⟨text, formatted⟩ := format_isOk digits value
  obtain ⟨shown, read, shownFinite, again⟩ := NumberFormat.format_of_parse finite formatted
  exact ⟨text, shown, formatted, read, shownFinite, again⟩

/-- Two thirds: `0.667` is shown, which is not the result, and stays. -/
theorem display_stays_of_equals_thirds :
    ∃ (turns : List (Turn MemoryStore)) (before session : Session MemoryStore) (result : Binary64),
      (start ⟨.empty⟩ .standard).pressAll [.digit '2', .operator .divide, .digit '3'] =
        .ok (turns, before) ∧
      before.format.maxFractionDigits.toNat ≤ NumberFormat.precisionLimit ∧
      before.pressEquals = .ok (.ok (some result), session) ∧
      session.display = "0.667" ∧ NumberFormat.parse session.display ≠ some result ∧
      ∃ moreTurns final,
        session.pressAll [.equals, .equals, .equals] = .ok (moreTurns, final) ∧
        final.display = "0.667" := by
  have typed : ∃ turns before,
      (start (σ := MemoryStore) ⟨.empty⟩ .standard).pressAll
          [.digit '2', .operator .divide, .digit '3'] = .ok (turns, before) ∧
        before.format = .standard ∧ before.display = "3" ∧
        before.expression = ⟨[.number (.ofNat 2), .operator .divide]⟩ := by
    have two : NumberFormat.parse "2" = some (.ofNat 2) := by decide +kernel
    have divided : ((start (σ := MemoryStore) ⟨.empty⟩ .standard).showOperand "2").press
          (.operator .divide) =
        .ok (.ok none, ⟨⟨.empty⟩, History.defaultSlot, [],
          ⟨[.number (.ofNat 2), .operator .divide]⟩, zeroText, .awaitingOperand, .standard,
          "Error"⟩) := by
      rw [Session.press, pressOperator_of_parse]
      · rfl
      · exact two
    exact ⟨_, _, pressAll_cons rfl (pressAll_cons divided (pressAll_cons rfl rfl)), rfl, rfl, rfl⟩
  obtain ⟨turns, before, ran, format, displayed, items⟩ := typed
  have three : NumberFormat.parse before.display = some (.ofNat 3) := by
    rw [displayed]
    decide +kernel
  have evaluated : (before.expression.push (.number (.ofNat 3))).evaluate =
      .ok ((Binary64.ofNat 2).div (.ofNat 3)) := by
    rw [items]
    decide +kernel
  have formatted : before.format.format ((Binary64.ofNat 2).div (.ofNat 3)) = .ok "0.667" := by
    rw [format]
    decide +kernel
  have shown : ((before.showResult "0.667").remember
      ⟨before.expression.push (.number (.ofNat 3)), (Binary64.ofNat 2).div (.ofNat 3)⟩).display =
      "0.667" := by
    rw [remember_eq]
    rfl
  have digits : before.format.maxFractionDigits.toNat ≤ NumberFormat.precisionLimit := by
    rw [format]
    decide
  have answered := (EqualsGives.answered three evaluated formatted).pressEquals
  obtain ⟨⟨moreTurns, final, repeated, finalDisplayed, _⟩, _⟩ :=
    display_stays_of_equals digits answered 3
  refine ⟨turns, before, _, _, ran, digits, answered, shown, ?_, moreTurns, final, repeated,
    finalDisplayed.trans shown⟩
  rw [shown]
  decide +kernel

end Session

end Keypad
