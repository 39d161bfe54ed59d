import Keypad.History.Calculation
import Keypad.Json.Layout
import Keypad.Json.Skip

/-!
Contract: items, expressions, calculations and histories as JSON.

A written item has one member, `number` or `operator`. A read item may have both, where the number
counts, or unknown ones, which are passed over. Records may also be read from arrays of their
fields in order.

Owns:
- the writers of the four kinds;
- their readers, with the order in which problems are reported.

Does not own: where texts are stored.
-/

namespace Keypad

open Json

/-! ## Writing -/

def Item.encode : Item → List Char
  | .number value => writeObject [("number", writeNumber value)]
  | .operator operation => writeObject [("operator", writeText operation.symbol)]

def Expression.encode (expression : Expression) : List Char :=
  writeArray (expression.items.map Item.encode)

def Calculation.encode (calculation : Calculation) : List Char :=
  writeObject
    [("expression", calculation.expression.encode), ("result", writeNumber calculation.result)]

/-- The compact text of a history. -/
def encodeHistory (history : List Calculation) : List Char :=
  writeArray (history.map Calculation.encode)

/-! ## Items -/

/-- The members of an item met so far; the inner option is a written `null`. -/
structure ItemMembers where
  number : Option (Option Binary64)
  operator : Option (Option String)

namespace ItemMembers

def none : ItemMembers := ⟨.none, .none⟩

/-- A number counts before an operator; without both there is no item. -/
def toItem (members : ItemMembers) : Result Item :=
  match members.number.join, members.operator.join with
  | some value, _ => .ok (.number value)
  | .none, some symbol =>
      match Operator.ofSymbol? symbol with
      | some operation => .ok (.operator operation)
      | .none => .error (.misfit (.unknownOperator symbol))
  | .none, .none => .error (.misfit .itemWithoutContent)

/-- The reader of the member with the given key. -/
def choose (key : String) (members : ItemMembers) : Reader ItemMembers :=
  if key = "number" then
    if members.number.isSome then
      .refuse (.misfit (.duplicateField key))
    else
      (member (optional binary64)).map fun value => ⟨some value, members.operator⟩
  else if key = "operator" then
    if members.operator.isSome then
      .refuse (.misfit (.duplicateField key))
    else
      (member (optional (text .text))).map fun value => ⟨members.number, some value⟩
  else
    (member skipped).map fun _ => members

/-- Reads the fields in order; those left out at the end are missing. -/
def ofElements (text : List Char) : Step ItemMembers :=
  match nextElement (optional binary64) true text with
  | .error fault => .error fault
  | .ok (number, rest) =>
      match nextElement (optional (Json.text .text)) false rest with
      | .error fault => .error fault
      | .ok (operator, rest) => .ok (⟨number, operator⟩, rest)

theorem ofElements_length {text rest : List Char} {members : ItemMembers}
    (read : ofElements text = .ok (members, rest)) : rest.length ≤ text.length := by
  unfold ofElements at read
  split at read
  · cases read
  next number afterNumber numberRead =>
    have first := nextElement_length_le numberRead
    split at read
    · cases read
    next operator afterOperator operatorRead =>
      have second := nextElement_length_le operatorRead
      cases read
      omega

end ItemMembers

/-- Reads an item; its content is judged after it has been read whole. -/
def itemReader : Reader Item :=
  (record "ItemRecord" ItemMembers.ofElements (membersFrom ItemMembers.choose .none true)
    ItemMembers.ofElements_length
    (fun read => Nat.le_of_lt (membersFrom_length read))).andThen ItemMembers.toItem

def expressionReader : Reader Expression := (array itemReader).map Expression.mk

/-! ## Calculations -/

/-- The members of a calculation met so far. -/
structure CalculationMembers where
  expression : Option Expression
  result : Option Binary64

namespace CalculationMembers

def none : CalculationMembers := ⟨.none, .none⟩

/-- Both members are needed; the expression is asked for first. -/
def toCalculation (members : CalculationMembers) : Result Calculation :=
  match members.expression, members.result with
  | .none, _ => .error (.misfit (.missingField "expression"))
  | some _, .none => .error (.misfit (.missingField "result"))
  | some expression, some result => .ok ⟨expression, result⟩

/-- The reader of the member with the given key. -/
def choose (key : String) (members : CalculationMembers) : Reader CalculationMembers :=
  if key = "expression" then
    if members.expression.isSome then
      .refuse (.misfit (.duplicateField key))
    else
      (member expressionReader).map fun value => ⟨some value, members.result⟩
  else if key = "result" then
    if members.result.isSome then
      .refuse (.misfit (.duplicateField key))
    else
      (member binary64).map fun value => ⟨members.expression, some value⟩
  else
    (member skipped).map fun _ => members

/-- Reads the members of an object up to its closing brace. -/
def ofMembers (text : List Char) : Step Calculation :=
  match membersFrom choose .none true text with
  | .error fault => .error fault
  | .ok (members, rest) =>
      match members.toCalculation with
      | .ok calculation => .ok (calculation, rest)
      | .error fault => .error fault

/-- Reads both fields in order. -/
def ofElements (text : List Char) : Step Calculation :=
  let tooShort (length : Nat) : Fault := .misfit (.wrongLength length "CalculationRecord" 2)
  match nextElement expressionReader true text with
  | .error fault => .error fault
  | .ok (.none, _) => .error (tooShort 0)
  | .ok (some expression, rest) =>
      match nextElement binary64 false rest with
      | .error fault => .error fault
      | .ok (.none, _) => .error (tooShort 1)
      | .ok (some result, rest) => .ok (⟨expression, result⟩, rest)

theorem ofMembers_length {text rest : List Char} {calculation : Calculation}
    (read : ofMembers text = .ok (calculation, rest)) : rest.length ≤ text.length := by
  unfold ofMembers at read
  split at read
  · cases read
  next members afterMembers membersRead =>
    have shorter := membersFrom_length membersRead
    split at read
    · cases read
      omega
    · cases read

theorem ofElements_length {text rest : List Char} {calculation : Calculation}
    (read : ofElements text = .ok (calculation, rest)) : rest.length ≤ text.length := by
  simp only [ofElements] at read
  split at read
  · cases read
  · cases read
  next expression afterExpression expressionRead =>
    have first := nextElement_length_le expressionRead
    split at read
    · cases read
    · cases read
    next result afterResult resultRead =>
      have second := nextElement_length_le resultRead
      cases read
      omega

end CalculationMembers

def calculationReader : Reader Calculation :=
  record "CalculationRecord" CalculationMembers.ofElements CalculationMembers.ofMembers
    CalculationMembers.ofElements_length CalculationMembers.ofMembers_length

def historyReader : Reader (List Calculation) := array calculationReader

/-! ## Whole texts -/

def Item.decode (text : String) : Result Item := readAll itemReader text

def Expression.decode (text : String) : Result Expression := readAll expressionReader text

def Calculation.decode (text : String) : Result Calculation := readAll calculationReader text

def decodeHistory (text : String) : Result (List Calculation) := readAll historyReader text

end Keypad
