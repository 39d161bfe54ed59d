import Keypad.History.Slot
import Keypad.Session.Key
import Keypad.Settings

/-!
Contract: a session at the keypad.

A session collects an expression from the keys, evaluates it on the equals key, and keeps the
history of finished calculations, which it writes to a store after each of them. What goes wrong
with the store never shows at the keypad.

Owns:
- the display, the state of input and the expression under construction;
- what each key does;
- which calculations the history takes.

Does not own: front ends, stores.
-/

namespace Keypad

/-- What the next key may begin or continue. -/
inductive InputState where
  | awaitingFirstOperand
  | awaitingOperator
  | awaitingOperand
  | error
  deriving DecidableEq

/-- What the equals key gives: a value, nothing when it is ignored, or an error. -/
abbrev Outcome := Except CalculationError (Option Binary64)

structure Session (σ : Type) where
  store : σ
  slot : String
  history : List Calculation
  expression : Expression
  display : String
  state : InputState
  format : NumberFormat
  errorToken : String

namespace Session

variable {σ : Type}

/-- The display of a fresh session. -/
def zeroText : String := "0"

/-- A fresh session; its history is what the slot of the store holds. -/
def start [KeyValueStore σ] (store : σ) (settings : Settings) : Session σ where
  store := store
  slot := settings.historySlot
  history := History.load store settings.historySlot
  expression := .empty
  display := zeroText
  state := .awaitingFirstOperand
  format := settings.numberFormat
  errorToken := settings.errorToken

/-- Whether the next digit begins an operand instead of extending one. -/
def isStarting (session : Session σ) : Bool :=
  session.state ≠ .awaitingOperator || session.display = zeroText

/-- A session that shows an operand under construction. -/
def showOperand (session : Session σ) (display : String) : Session σ :=
  { session with display, state := .awaitingOperator }

/-- A digit extends the operand, and replaces a lone zero; a period is taken once. All else, and
everything while an error is shown, is ignored. -/
def pressDigitOrPeriod (session : Session σ) (character : Char) : Session σ :=
  if session.state = .error then
    session
  else if character.isDigit then
    if session.isStarting then
      session.showOperand (String.singleton character)
    else
      session.showOperand (session.display.push character)
  else if character = Decimal.point then
    if session.isStarting then
      session.showOperand (zeroText.push Decimal.point)
    else if session.display.toList.contains Decimal.point then
      session
    else
      session.showOperand (session.display.push character)
  else
    session

/-- Moves the displayed number and the operator into the expression. Ignored when the display is no
number. -/
def pressOperator (session : Session σ) (operation : Operator) : Session σ :=
  match NumberFormat.parse session.display with
  | none => session
  | some value =>
      { session with
        expression := (session.expression.push (.number value)).push (.operator operation)
        display := zeroText
        state := .awaitingOperand }

/-- Takes a finished calculation into the history and saves that, if it can be stored at all. -/
def remember [KeyValueStore σ] (session : Session σ) (calculation : Calculation) : Session σ :=
  if calculation.isEncodable then
    let history := session.history ++ [calculation]
    { session with history, store := History.save session.store session.slot history }
  else
    session

/-- Evaluates the expression with the displayed number at its end. Ignored when the display is no
number. The value is laid out before it is remembered, so a fault of the layout leaves no trace in
the store. -/
def pressEquals [KeyValueStore σ] (session : Session σ) :
    Except FormatFault (Outcome × Session σ) :=
  match NumberFormat.parse session.display with
  | none => .ok (.ok none, session)
  | some value =>
      let expression := session.expression.push (.number value)
      match expression.evaluate with
      | .error fault =>
          .ok (.error fault,
            { session with
              expression := .empty, display := session.errorToken, state := .error })
      | .ok result =>
          match session.format.format result with
          | .error fault => .error fault
          | .ok display =>
              let shown : Session σ :=
                { session with expression := .empty, display, state := .awaitingFirstOperand }
              .ok (.ok (some result), shown.remember ⟨expression, result⟩)

/-- Drops the expression and the display; the history stays. -/
def pressClear (session : Session σ) : Session σ :=
  { session with
    expression := .empty, display := zeroText, state := .awaitingFirstOperand }

/-- What a key does. Only the equals key has an outcome. -/
def press [KeyValueStore σ] (session : Session σ) :
    Key → Except FormatFault (Outcome × Session σ)
  | .digit character => .ok (.ok none, session.pressDigitOrPeriod character)
  | .period => .ok (.ok none, session.pressDigitOrPeriod Decimal.point)
  | .operator operation => .ok (.ok none, session.pressOperator operation)
  | .equals => session.pressEquals
  | .clear => .ok (.ok none, session.pressClear)

/-- The lines of a history listing, oldest first. -/
def rows (session : Session σ) : List String := session.history.map Calculation.row

end Session

end Keypad
