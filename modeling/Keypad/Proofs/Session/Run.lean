import Keypad.Proofs.History.Slot
import Keypad.Session.Basic

/-!
Contract: what one key press does to a session's history and store, and what a run of them does.

Owns:
- runs of key presses, turn by turn;
- the calculation that a turn records and the history that it saves;
- that no key press fails when the display can lay out its digits;
- the two things a key press can do: leave the history and the store alone, or record one calculation
  and save;
- the sessions that keys lead to.

Does not own: displays, which keys lead to which calculation.
-/

namespace Keypad

/-- One key press of a run. -/
structure Turn (σ : Type) where
  before : Session σ
  key : Key
  outcome : Outcome
  after : Session σ

namespace Turn

variable {σ : Type}

/-- The calculation that a turn records: the one that an equals key gave a value for, if all its
numbers are finite. -/
def recorded (turn : Turn σ) : Option Calculation :=
  match turn.key, turn.outcome, NumberFormat.parse turn.before.display with
  | .equals, .ok (some result), some value =>
      let calculation : Calculation := ⟨turn.before.expression.push (.number value), result⟩
      if calculation.isEncodable then some calculation else none
  | _, _, _ => none

/-- What is recorded is what an equals key answered, with all its numbers finite: the displayed
number behind the expression so far. -/
theorem answered_of_recorded {turn : Turn σ} {calculation : Calculation}
    (recorded : turn.recorded = some calculation) :
    turn.key = .equals ∧ turn.outcome = .ok (some calculation.result) ∧
      calculation.isEncodable = true ∧
      ∃ value, calculation.expression = turn.before.expression.push (.number value) := by
  unfold Turn.recorded at recorded
  split at recorded
  next result value isEquals answers _ =>
    dsimp only at recorded
    split at recorded
    next encodable =>
      cases recorded
      exact ⟨isEquals, answers, encodable, value, rfl⟩
    · cases recorded
  · cases recorded

/-- The history that a turn writes to the store with success. -/
def saved [KeyValueStore σ] (turn : Turn σ) : Option (List Calculation) :=
  match turn.recorded, KeyValueStore.set turn.before.store turn.before.slot
    (String.ofList (encodeHistory turn.after.history)) with
  | some _, (.ok (), _) => some turn.after.history
  | _, _ => none

end Turn

namespace Session

variable {σ : Type} [KeyValueStore σ]

/-- Presses keys one after the other. -/
def pressAll (session : Session σ) : List Key → Except FormatFault (List (Turn σ) × Session σ)
  | [] => .ok ([], session)
  | key :: keys =>
      match session.press key with
      | .error fault => .error fault
      | .ok (outcome, after) =>
          match after.pressAll keys with
          | .error fault => .error fault
          | .ok (turns, final) => .ok (⟨session, key, outcome, after⟩ :: turns, final)

theorem pressAll_cons {session after final : Session σ} {key : Key} {keys : List Key}
    {outcome : Outcome} {turns : List (Turn σ)} (pressed : session.press key = .ok (outcome, after))
    (ran : after.pressAll keys = .ok (turns, final)) :
    session.pressAll (key :: keys) = .ok (⟨session, key, outcome, after⟩ :: turns, final) := by
  rw [pressAll, pressed]
  dsimp only
  rw [ran]

/-- A run that succeeds is its first turn and a run from there. -/
theorem exists_of_pressAll_cons {session final : Session σ} {key : Key} {keys : List Key}
    {turns : List (Turn σ)} (ran : session.pressAll (key :: keys) = .ok (turns, final)) :
    ∃ outcome after later, session.press key = .ok (outcome, after) ∧
      after.pressAll keys = .ok (later, final) ∧ turns = ⟨session, key, outcome, after⟩ :: later := by
  rw [pressAll] at ran
  split at ran
  · cases ran
  next outcome after pressed =>
    split at ran
    · cases ran
    next later last ranLater =>
      cases ran
      exact ⟨outcome, after, later, pressed, ranLater, rfl⟩

/-- Two runs one after the other are one run. -/
theorem pressAll_append {session middle final : Session σ} {keys more : List Key}
    {turns moreTurns : List (Turn σ)} (first : session.pressAll keys = .ok (turns, middle))
    (second : middle.pressAll more = .ok (moreTurns, final)) :
    session.pressAll (keys ++ more) = .ok (turns ++ moreTurns, final) := by
  induction keys generalizing session turns with
  | nil =>
      cases first
      exact second
  | cons key keys inductionHypothesis =>
      obtain ⟨outcome, after, later, pressed, ran, rfl⟩ := exists_of_pressAll_cons first
      exact pressAll_cons pressed (inductionHypothesis ran)

/-- A session with the slot and the looks of another one. -/
structure SameSetup (before after : Session σ) : Prop where
  slot : after.slot = before.slot
  format : after.format = before.format
  errorToken : after.errorToken = before.errorToken

omit [KeyValueStore σ] in
theorem SameSetup.trans {first second third : Session σ} (left : SameSetup first second)
    (right : SameSetup second third) : SameSetup first third :=
  ⟨right.slot.trans left.slot, right.format.trans left.format,
    right.errorToken.trans left.errorToken⟩

/-- A session that differs from another one in its expression, its display and its state of input
only. -/
structure Keeps (before after : Session σ) : Prop where
  setup : SameSetup before after
  history : after.history = before.history
  store : after.store = before.store

omit [KeyValueStore σ] in
theorem Keeps.refl (session : Session σ) : Keeps session session := ⟨⟨rfl, rfl, rfl⟩, rfl, rfl⟩

omit [KeyValueStore σ] in
theorem Keeps.trans {first second third : Session σ} (left : Keeps first second)
    (right : Keeps second third) : Keeps first third :=
  ⟨left.setup.trans right.setup, right.history.trans left.history, right.store.trans left.store⟩

/-- What a turn does to the history and the store. -/
inductive Advances (turn : Turn σ) : Prop where
  | idle (recorded : turn.recorded = none) (history : turn.after.history = turn.before.history)
      (store : turn.after.store = turn.before.store)
  | recording {calculation : Calculation} (recorded : turn.recorded = some calculation)
      (encodable : calculation.isEncodable = true)
      (evaluates : calculation.expression.evaluate = .ok calculation.result)
      (history : turn.after.history = turn.before.history ++ [calculation])
      (store : turn.after.store =
        History.save turn.before.store turn.before.slot turn.after.history)

omit [KeyValueStore σ] in
theorem keeps_pressDigitOrPeriod (session : Session σ) (character : Char) :
    Keeps session (session.pressDigitOrPeriod character) := by
  have shows : ∀ display : String, Keeps session (session.showOperand display) :=
    fun _ => ⟨⟨rfl, rfl, rfl⟩, rfl, rfl⟩
  unfold pressDigitOrPeriod
  split
  · exact .refl session
  · split
    · split <;> apply shows
    · split
      · split
        · apply shows
        · split
          · exact .refl session
          · apply shows
      · exact .refl session

omit [KeyValueStore σ] in
theorem keeps_pressOperator (session : Session σ) (operation : Operator) :
    Keeps session (session.pressOperator operation) := by
  unfold pressOperator
  split <;> exact ⟨⟨rfl, rfl, rfl⟩, rfl, rfl⟩

omit [KeyValueStore σ] in
theorem pressOperator_of_parse {session : Session σ} {value : Binary64}
    (read : NumberFormat.parse session.display = some value) (operation : Operator) :
    session.pressOperator operation =
      { session with
        expression := (session.expression.push (.number value)).push (.operator operation)
        display := zeroText
        state := .awaitingOperand } := by
  unfold pressOperator
  rw [read]

/-- The session after a failed evaluation. -/
def showError (session : Session σ) : Session σ :=
  { session with expression := .empty, display := session.errorToken, state := .error }

/-- The session that shows a result. -/
def showResult (session : Session σ) (display : String) : Session σ :=
  { session with expression := .empty, display, state := .awaitingFirstOperand }

/-- The display of a fresh session is read as zero. -/
theorem parse_zeroText : NumberFormat.parse zeroText = some .zero := by decide +kernel

theorem format_isOk {format : NumberFormat}
    (digits : format.maxFractionDigits.toNat ≤ NumberFormat.precisionLimit) (value : Binary64) :
    ∃ text, format.format value = .ok text := by
  cases value with
  | nan => exact ⟨_, rfl⟩
  | infinite negative => exact ⟨_, rfl⟩
  | finite negative magnitude => exact ⟨_, if_pos digits⟩

/-- What the equals key does when the display can lay out its digits. -/
inductive EqualsGives (session : Session σ) : Outcome → Session σ → Prop where
  | ignored (unreadable : NumberFormat.parse session.display = none) :
      EqualsGives session (.ok none) session
  | failed {value : Binary64} {fault : CalculationError}
      (read : NumberFormat.parse session.display = some value)
      (evaluated : (session.expression.push (.number value)).evaluate = .error fault) :
      EqualsGives session (.error fault) session.showError
  | answered {value result : Binary64} {text : String}
      (read : NumberFormat.parse session.display = some value)
      (evaluated : (session.expression.push (.number value)).evaluate = .ok result)
      (formatted : session.format.format result = .ok text) :
      EqualsGives session (.ok (some result))
        ((session.showResult text).remember ⟨session.expression.push (.number value), result⟩)

theorem EqualsGives.pressEquals {session after : Session σ} {outcome : Outcome}
    (gives : EqualsGives session outcome after) : session.pressEquals = .ok (outcome, after) := by
  cases gives with
  | ignored unreadable => simp [Session.pressEquals, unreadable]
  | failed read evaluated => simp [Session.pressEquals, read, evaluated, showError]
  | answered read evaluated formatted =>
      simp [Session.pressEquals, read, evaluated, formatted, showResult]

/-- Whenever the equals key does not fail, it does one of the three. -/
theorem equalsGives_of_pressEquals {session after : Session σ} {outcome : Outcome}
    (pressed : session.pressEquals = .ok (outcome, after)) :
    EqualsGives session outcome after := by
  cases read : NumberFormat.parse session.display with
  | none =>
      have gives := EqualsGives.ignored read
      rw [gives.pressEquals] at pressed
      cases pressed
      exact gives
  | some value =>
      cases evaluated : (session.expression.push (.number value)).evaluate with
      | error fault =>
          have gives := EqualsGives.failed read evaluated
          rw [gives.pressEquals] at pressed
          cases pressed
          exact gives
      | ok result =>
          cases formatted : session.format.format result with
          | error fault => simp [pressEquals, read, evaluated, formatted] at pressed
          | ok text =>
              have gives := EqualsGives.answered read evaluated formatted
              rw [gives.pressEquals] at pressed
              cases pressed
              exact gives

theorem exists_equalsGives {session : Session σ}
    (digits : session.format.maxFractionDigits.toNat ≤ NumberFormat.precisionLimit) :
    ∃ outcome after, EqualsGives session outcome after := by
  cases read : NumberFormat.parse session.display with
  | none => exact ⟨_, _, .ignored read⟩
  | some value =>
      cases evaluated : (session.expression.push (.number value)).evaluate with
      | error fault => exact ⟨_, _, .failed read evaluated⟩
      | ok result =>
          obtain ⟨text, formatted⟩ := format_isOk digits result
          exact ⟨_, _, .answered read evaluated formatted⟩

/-- No key press fails when the display can lay out its digits. -/
theorem press_isOk {session : Session σ}
    (digits : session.format.maxFractionDigits.toNat ≤ NumberFormat.precisionLimit) (key : Key) :
    ∃ outcome after, session.press key = .ok (outcome, after) := by
  cases key with
  | equals =>
      obtain ⟨outcome, after, gives⟩ := exists_equalsGives digits
      exact ⟨outcome, after, gives.pressEquals⟩
  | _ => exact ⟨_, _, rfl⟩

omit [KeyValueStore σ] in
theorem recorded_of_ne_equals {turn : Turn σ} (other : turn.key ≠ .equals) :
    turn.recorded = none := by
  unfold Turn.recorded
  split
  next isEquals _ _ => exact absurd isEquals other
  · rfl

/-- Remembering changes the history and the store only. -/
theorem remember_eq (session : Session σ) (calculation : Calculation) :
    session.remember calculation =
      { session with
        history := session.history ++ if calculation.isEncodable then [calculation] else []
        store := (session.remember calculation).store } := by
  unfold remember
  split <;> simp

theorem sameSetup_remember (session : Session σ) (calculation : Calculation) :
    SameSetup session (session.remember calculation) := by
  rw [remember_eq]
  exact ⟨rfl, rfl, rfl⟩

/-- The equals key leaves the setup alone and records at most the calculation that it answers. -/
theorem EqualsGives.advances {session after : Session σ} {outcome : Outcome}
    (gives : EqualsGives session outcome after) :
    SameSetup session after ∧ Advances ⟨session, .equals, outcome, after⟩ := by
  cases gives with
  | ignored unreadable =>
      exact ⟨⟨rfl, rfl, rfl⟩, .idle (by simp [Turn.recorded]) rfl rfl⟩
  | failed read evaluated =>
      exact ⟨⟨rfl, rfl, rfl⟩, .idle (by simp [Turn.recorded]) rfl rfl⟩
  | answered read evaluated formatted =>
      next value result text =>
      have setup := sameSetup_remember (session.showResult text)
        ⟨session.expression.push (.number value), result⟩
      refine ⟨⟨setup.slot, setup.format, setup.errorToken⟩, ?_⟩
      by_cases encodable : Calculation.isEncodable
          ⟨session.expression.push (.number value), result⟩ = true
      · apply Advances.recording _ encodable evaluated
        · simp [remember, encodable, showResult]
        · simp [remember, encodable, showResult]
        · simp [Turn.recorded, read, encodable]
      · apply Advances.idle
        · simp [Turn.recorded, read, encodable]
        · simp [remember, encodable, showResult]
        · simp [remember, encodable, showResult]

/-- A turn keeps the history free of numbers that are not finite. -/
theorem Advances.encodable {turn : Turn σ} (advances : Advances turn)
    (encodable : ∀ calculation ∈ turn.before.history, calculation.isEncodable = true) :
    ∀ calculation ∈ turn.after.history, calculation.isEncodable = true := by
  cases advances with
  | idle _ history _ =>
      rw [history]
      exact encodable
  | recording _ calculationEncodable _ history _ =>
      rw [history, List.forall_mem_append, List.forall_mem_singleton]
      exact ⟨encodable, calculationEncodable⟩

/-- What a turn records has the value of its expression for a result. -/
theorem Advances.evaluate_eq {turn : Turn σ} (advances : Advances turn) {calculation : Calculation}
    (recorded : turn.recorded = some calculation) :
    calculation.expression.evaluate = .ok calculation.result := by
  cases advances with
  | idle nothing _ _ =>
      rw [nothing] at recorded
      cases recorded
  | recording same _ evaluates _ _ =>
      rw [same] at recorded
      cases recorded
      exact evaluates

/-- A key press leaves the setup alone and advances the history and the store. -/
theorem press_advances {session after : Session σ} {key : Key} {outcome : Outcome}
    (pressed : session.press key = .ok (outcome, after)) :
    SameSetup session after ∧ Advances ⟨session, key, outcome, after⟩ := by
  by_cases isEquals : key = .equals
  · subst isEquals
    exact (equalsGives_of_pressEquals pressed).advances
  · have keeps : Keeps session after := by
      cases key with
      | equals => exact absurd rfl isEquals
      | digit character =>
          cases pressed
          exact keeps_pressDigitOrPeriod session character
      | period =>
          cases pressed
          exact keeps_pressDigitOrPeriod session Decimal.point
      | operator operation =>
          cases pressed
          exact keeps_pressOperator session operation
      | clear =>
          cases pressed
          exact ⟨⟨rfl, rfl, rfl⟩, rfl, rfl⟩
    exact ⟨keeps.setup, .idle (recorded_of_ne_equals isEquals) keeps.history keeps.store⟩

/-- No run fails when the display can lay out its digits. -/
theorem pressAll_isOk (session : Session σ)
    (digits : session.format.maxFractionDigits.toNat ≤ NumberFormat.precisionLimit)
    (keys : List Key) : ∃ turns final, session.pressAll keys = .ok (turns, final) := by
  induction keys generalizing session with
  | nil => exact ⟨[], session, rfl⟩
  | cons key keys inductionHypothesis =>
      obtain ⟨outcome, after, pressed⟩ := press_isOk digits key
      rw [← (press_advances pressed).1.format] at digits
      obtain ⟨turns, final, ran⟩ := inductionHypothesis after digits
      exact ⟨_, final, pressAll_cons pressed ran⟩

/-- A turn adds what it records to the history. -/
theorem Advances.history_eq {turn : Turn σ} (advances : Advances turn) :
    turn.after.history = turn.before.history ++ turn.recorded.toList := by
  cases advances with
  | idle recorded history _ => simp [recorded, history]
  | recording recorded _ _ history _ => simp [recorded, history]

/-- A run adds what its turns record to the history. -/
theorem history_of_pressAll {session final : Session σ} {keys : List Key} {turns : List (Turn σ)}
    (ran : session.pressAll keys = .ok (turns, final)) :
    final.history = session.history ++ turns.filterMap Turn.recorded := by
  induction keys generalizing session turns with
  | nil =>
      cases ran
      simp
  | cons key keys inductionHypothesis =>
      obtain ⟨outcome, after, later, pressed, ranLater, rfl⟩ := exists_of_pressAll_cons ran
      have grows := (press_advances pressed).2.history_eq
      dsimp only at grows
      rw [inductionHypothesis ranLater, grows, List.append_assoc, List.filterMap_cons]
      cases Turn.recorded ⟨session, key, outcome, after⟩ <;> rfl

/-! ## Sessions that keys lead to -/

/-- A session that keys lead to from a fresh one with the given settings, on any store. -/
inductive Reachable (settings : Settings) : Session σ → Prop where
  | fresh (store : σ) : Reachable settings (start store settings)
  | pressed {session after : Session σ} {key : Key} {outcome : Outcome}
      (reachable : Reachable settings session) (press : session.press key = .ok (outcome, after)) :
      Reachable settings after

/-- Keys leave the slot and the looks as the settings have them. -/
theorem Reachable.setup {settings : Settings} {session : Session σ}
    (reachable : Reachable settings session) :
    session.slot = settings.historySlot ∧ session.format = settings.numberFormat ∧
      session.errorToken = settings.errorToken := by
  induction reachable with
  | fresh store => exact ⟨rfl, rfl, rfl⟩
  | pressed _ press inductionHypothesis =>
      obtain ⟨slot, format, errorToken⟩ := inductionHypothesis
      obtain ⟨kept, _⟩ := press_advances press
      exact ⟨kept.slot.trans slot, kept.format.trans format, kept.errorToken.trans errorToken⟩

/-- A run of keys leads from a reachable session to a reachable one. -/
theorem Reachable.pressAll {settings : Settings} {session final : Session σ} {keys : List Key}
    {turns : List (Turn σ)} (reachable : Reachable settings session)
    (ran : session.pressAll keys = .ok (turns, final)) : Reachable settings final := by
  induction keys generalizing session turns with
  | nil =>
      cases ran
      exact reachable
  | cons key keys inductionHypothesis =>
      obtain ⟨outcome, after, later, press, ranLater, rfl⟩ := exists_of_pressAll_cons ran
      exact inductionHypothesis (reachable.pressed press) ranLater

/-- Every turn of a run is a key pressed in a reachable session. -/
theorem Reachable.turn {settings : Settings} {session final : Session σ} {keys : List Key}
    {turns : List (Turn σ)} (reachable : Reachable settings session)
    (ran : session.pressAll keys = .ok (turns, final)) :
    ∀ turn ∈ turns, Reachable settings turn.before ∧
      turn.before.press turn.key = .ok (turn.outcome, turn.after) := by
  induction keys generalizing session turns with
  | nil =>
      cases ran
      exact List.forall_mem_nil _
  | cons key keys inductionHypothesis =>
      obtain ⟨outcome, after, later, press, ranLater, rfl⟩ := exists_of_pressAll_cons ran
      rw [List.forall_mem_cons]
      exact ⟨⟨reachable, press⟩, inductionHypothesis (reachable.pressed press) ranLater⟩

end Session

end Keypad
