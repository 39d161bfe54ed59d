import Keypad.History.Codec
import Keypad.Proofs.Json.Nested
import Keypad.Proofs.Json.Yields

/-!
Contract: a history survives its text, up to the value that each number is read back as.

Owns:
- items, expressions, calculations and histories as they are read back;
- that the text of a history with finite numbers is read, to the history with each number as it is
  read back;
- that every history that is read has finite numbers only.

Does not own: which numbers are read back unchanged.
-/

namespace Keypad

open Json

/-! ## What is read back -/

/-- The item with its number as it is read back. -/
def Item.reread : Item → Item
  | .number value => .number (Json.reread value)
  | .operator operation => .operator operation

/-- The calculation with its numbers as they are read back. -/
def Calculation.reread (calculation : Calculation) : Calculation :=
  ⟨⟨calculation.expression.items.map Item.reread⟩, Json.reread calculation.result⟩

theorem reads_members {texts : List (String × List Char)} {members : ItemMembers} {item : Item}
    (gathers : Gathers ItemMembers.choose texts .none members)
    (accepted : members.toItem = .ok item) : Reads itemReader (writeObject texts) item := by
  refine Reads.andThen (reads_writeObject ItemMembers.ofElements_length
    (fun read => Nat.le_of_lt (membersFrom_length read)) ?_) accepted
  exact membersFrom_written rfl rfl rfl gathers

theorem reads_number {value : Binary64} (finite : value.isFinite = true) :
    Reads itemReader (Item.number value).encode (.number (reread value)) := by
  have gathers : Gathers ItemMembers.choose [("number", writeNumber value)] .none
      ⟨some (some (reread value)), none⟩ :=
    .cons ((ReadsMember.of_reads (reads_reread finite).1.optional).map _) (.nil _)
  exact reads_members gathers rfl

theorem reads_operator (operation : Operator) :
    Reads itemReader (Item.operator operation).encode (.operator operation) := by
  have gathers : Gathers ItemMembers.choose [("operator", writeText operation.symbol)] .none
      ⟨none, some (some operation.symbol)⟩ :=
    .cons ((ReadsMember.of_reads (reads_writeText .text operation.symbol).optional).map _) (.nil _)
  apply reads_members gathers
  simp [ItemMembers.toItem, Operator.ofSymbol?_symbol]

theorem reads_item {item : Item} (encodable : item.isEncodable = true) :
    Reads itemReader item.encode item.reread := by
  cases item with
  | number value => exact reads_number encodable
  | operator operation => exact reads_operator operation

theorem reads_expression {expression : Expression}
    (encodable : ∀ item ∈ expression.items, item.isEncodable = true) :
    Reads expressionReader expression.encode ⟨expression.items.map Item.reread⟩ :=
  (reads_writeArray fun item member => reads_item (encodable item member)).map Expression.mk

theorem Calculation.isEncodable_iff (calculation : Calculation) :
    calculation.isEncodable = true ↔
      calculation.result.isFinite = true ∧
        ∀ item ∈ calculation.expression.items, item.isEncodable = true := by
  simp [isEncodable]

theorem reads_calculation {calculation : Calculation}
    (encodable : calculation.isEncodable = true) :
    Reads calculationReader calculation.encode calculation.reread := by
  obtain ⟨resultFinite, itemsEncodable⟩ := calculation.isEncodable_iff.mp encodable
  have gathers : Gathers CalculationMembers.choose
      [("expression", calculation.expression.encode), ("result", writeNumber calculation.result)]
      .none ⟨some calculation.reread.expression, some calculation.reread.result⟩ :=
    .cons ((ReadsMember.of_reads (reads_expression itemsEncodable)).map _)
      (.cons ((ReadsMember.of_reads (reads_reread resultFinite).1).map _) (.nil _))
  refine reads_writeObject CalculationMembers.ofElements_length
    CalculationMembers.ofMembers_length fun rest => ?_
  unfold CalculationMembers.ofMembers
  rw [membersFrom_written rfl rfl rfl gathers]
  rfl

/-- A history with finite numbers only is read back whole: each number as it is read back, and
everything else as it was. -/
theorem decodeHistory_encodeHistory {history : List Calculation}
    (encodable : ∀ calculation ∈ history, calculation.isEncodable = true) :
    decodeHistory (String.ofList (encodeHistory history)) = .ok (history.map Calculation.reread) :=
  (reads_writeArray fun calculation member =>
    reads_calculation (encodable calculation member)).readAll

/-! ## What is read is finite -/

/-- The numbers met so far are finite. -/
def ItemMembers.Finite (members : ItemMembers) : Prop :=
  ∀ found ∈ members.number, ∀ value ∈ found, value.isFinite = true

theorem ItemMembers.finite_choose (name : String) {gathered : ItemMembers}
    (held : gathered.Finite) : Yields (choose name gathered) ItemMembers.Finite := by
  unfold choose
  split_ifs
  · exact yields_refuse _
  · refine yields_binary64.optional.member.map fun finite => ?_
    rintro _ ⟨⟩
    exact finite
  · exact yields_refuse _
  · exact yields_true.map fun _ => held
  · exact yields_true.map fun _ => held

theorem ItemMembers.finite_ofElements (text rest : List Char) (members : ItemMembers)
    (read : ofElements text = .ok (members, rest)) : members.Finite := by
  unfold ofElements at read
  split at read
  · simp at read
  next numberRead =>
    split at read
    · simp at read
    · cases read
      exact yields_binary64.optional.nextElement numberRead

theorem ItemMembers.isEncodable_toItem {members : ItemMembers} {item : Item}
    (finite : members.Finite) (accepted : members.toItem = .ok item) :
    item.isEncodable = true := by
  unfold toItem at accepted
  split at accepted
  next value _ found =>
    cases accepted
    exact finite _ (Option.join_eq_some_iff.mp found) _ rfl
  next =>
    split at accepted <;> cases accepted
    rfl
  · simp at accepted

/-- A number in an item that is read is finite. -/
theorem yields_item : Yields itemReader fun item => item.isEncodable = true := by
  have started : ItemMembers.none.Finite := by
    rintro _ ⟨⟩
  have members : Yields
      (record "ItemRecord" ItemMembers.ofElements (membersFrom ItemMembers.choose .none true)
        ItemMembers.ofElements_length fun read => Nat.le_of_lt (membersFrom_length read))
      ItemMembers.Finite :=
    yields_record _ _ _ ItemMembers.finite_ofElements fun _ _ _ =>
      yields_membersFrom (fun name _ => ItemMembers.finite_choose name) started
  exact members.andThen ItemMembers.isEncodable_toItem

theorem yields_expression :
    Yields expressionReader fun expression => ∀ item ∈ expression.items, item.isEncodable = true :=
  yields_item.array.map fun encodable => encodable

/-- The numbers of the members met so far are finite. -/
def CalculationMembers.Finite (members : CalculationMembers) : Prop :=
  (∀ expression ∈ members.expression, ∀ item ∈ expression.items, item.isEncodable = true) ∧
    ∀ result ∈ members.result, result.isFinite = true

theorem CalculationMembers.finite_choose (name : String) {gathered : CalculationMembers}
    (held : gathered.Finite) : Yields (choose name gathered) CalculationMembers.Finite := by
  unfold choose
  split_ifs
  · exact yields_refuse _
  · refine yields_expression.member.map fun encodable => ⟨?_, held.2⟩
    rintro _ ⟨⟩
    exact encodable
  · exact yields_refuse _
  · refine yields_binary64.member.map fun finite => ⟨held.1, ?_⟩
    rintro _ ⟨⟩
    exact finite
  · exact yields_true.map fun _ => held

theorem CalculationMembers.isEncodable_ofMembers (text rest : List Char)
    (calculation : Calculation) (read : ofMembers text = .ok (calculation, rest)) :
    calculation.isEncodable = true := by
  unfold ofMembers at read
  split at read
  · simp at read
  next members _ membersRead =>
    have started : none.Finite := by
      constructor <;> rintro _ ⟨⟩
    have finite := yields_membersFrom (fun name _ => finite_choose name) started membersRead
    split at read
    next accepted =>
      cases read
      unfold toCalculation at accepted
      split at accepted <;> cases accepted
      next expressionMet resultMet =>
      rw [Calculation.isEncodable_iff]
      exact ⟨finite.2 _ resultMet, finite.1 _ expressionMet⟩
    · simp at read

theorem CalculationMembers.isEncodable_ofElements (text rest : List Char)
    (calculation : Calculation) (read : ofElements text = .ok (calculation, rest)) :
    calculation.isEncodable = true := by
  simp only [ofElements] at read
  split at read
  · simp at read
  · simp at read
  next expressionRead =>
    split at read
    · simp at read
    · simp at read
    next resultRead =>
      cases read
      rw [Calculation.isEncodable_iff]
      exact ⟨yields_binary64.nextElement resultRead _ rfl,
        yields_expression.nextElement expressionRead _ rfl⟩

/-- Every calculation of a history that is read has finite numbers only. -/
theorem isEncodable_of_decodeHistory {text : String} {history : List Calculation}
    (read : decodeHistory text = .ok history) :
    ∀ calculation ∈ history, calculation.isEncodable = true := by
  have calculations : Yields calculationReader fun calculation =>
      calculation.isEncodable = true :=
    yields_record _ _ _ CalculationMembers.isEncodable_ofElements
      CalculationMembers.isEncodable_ofMembers
  exact calculations.array.readAll read

end Keypad
