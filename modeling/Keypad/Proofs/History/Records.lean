import Keypad.History.Codec
import Keypad.Proofs.Json.Fields

/-!
Contract: the readers of items, expressions and calculations make the same of a text wherever it
stands.

Owns:
- the tables of fields of items and calculations, and that their readers follow them;
- both forms of these records, as objects and as arrays.

Does not own: histories, settings.
-/

namespace Keypad

open Json

/-! ## Items -/

namespace ItemMembers

/-- The fields of an item. -/
def fields : List (RecordField ItemMembers) :=
  [{ name := "number"
     Value := Option Binary64
     reader := optional binary64
     kept := number
     keep := fun value members => ⟨some value, members.operator⟩ },
   { name := "operator"
     Value := Option String
     reader := optional (text .text)
     kept := operator
     keep := fun value members => ⟨members.number, some value⟩ }]

theorem isTable : RecordField.IsTable fields where
  steady := by
    simp only [fields, List.forall_mem_cons]
    exact ⟨steady_binary64.optional, (steady_text .text).optional, List.forall_mem_nil _⟩
  filled := by
    simp only [fields, List.forall_mem_cons]
    exact ⟨fun _ _ => rfl, fun _ _ => rfl, List.forall_mem_nil _⟩
  independent := by
    apply List.pairwise_pair.mpr
    exact ⟨fun _ _ => rfl, fun _ _ => rfl, fun _ _ _ => rfl⟩

theorem steadyElements : SteadyElements ofElements := by
  intro inside texts holds
  rcases steady_binary64.optional.exists_nextElement holds with
    ⟨fault, refused⟩ | ⟨number, others, remaining, later, numberRead⟩
  · refine .inl ⟨fault, fun rest => ?_⟩
    simp only [ofElements, refused]
  rcases (steady_text .text).optional.exists_nextElement later with
    ⟨fault, refused⟩ | ⟨operator, last, remaining, behind, operatorRead⟩
  · refine .inl ⟨fault, fun rest => ?_⟩
    simp only [ofElements, numberRead, refused]
  · refine .inr ⟨⟨number, operator⟩, last, remaining, behind, fun rest => ?_⟩
    simp only [ofElements, numberRead, operatorRead]

end ItemMembers

theorem follows_item : Follows ItemMembers.fields .none ItemMembers.toItem itemReader :=
  ItemMembers.isTable.follows_record ItemMembers.ofElements_length
    fun read => Nat.le_of_lt (membersFrom_length read)

theorem steady_item : Steady itemReader :=
  (steady_record ItemMembers.ofElements_length (fun read => Nat.le_of_lt (membersFrom_length read))
    ItemMembers.steadyElements (ItemMembers.isTable.steadyMembers .none)).andThen _

theorem steady_expression : Steady expressionReader := steady_item.array.map _

/-! ## Calculations -/

namespace CalculationMembers

/-- The fields of a calculation. -/
def fields : List (RecordField CalculationMembers) :=
  [{ name := "expression"
     Value := Expression
     reader := expressionReader
     kept := expression
     keep := fun value members => ⟨some value, members.result⟩ },
   { name := "result"
     Value := Binary64
     reader := binary64
     kept := result
     keep := fun value members => ⟨members.expression, some value⟩ }]

theorem isTable : RecordField.IsTable fields where
  steady := by
    simp only [fields, List.forall_mem_cons]
    exact ⟨steady_expression, steady_binary64, List.forall_mem_nil _⟩
  filled := by
    simp only [fields, List.forall_mem_cons]
    exact ⟨fun _ _ => rfl, fun _ _ => rfl, List.forall_mem_nil _⟩
  independent := by
    apply List.pairwise_pair.mpr
    exact ⟨fun _ _ => rfl, fun _ _ => rfl, fun _ _ _ => rfl⟩

theorem ofMembers_holds {inside : List Char} {entries : List (List Char × List Char)}
    (holds : Holds IsMember true inside entries) (rest : List Char) :
    ofMembers (inside ++ '\x7d' :: rest) =
      ((entries.foldlM (gatherMember (RecordField.choose fields)) none).bind toCalculation).map
        fun calculation => (calculation, rest) := by
  have gathered : membersFrom choose none true (inside ++ '\x7d' :: rest) = _ :=
    membersFrom_holds isTable.steadyMember holds none rest
  unfold ofMembers
  rw [gathered]
  cases entries.foldlM (gatherMember (RecordField.choose fields)) none with
  | error fault => rfl
  | ok members =>
      show _ = members.toCalculation.map _
      simp only [Except.map]
      cases members.toCalculation <;> rfl

theorem steadyElements : SteadyElements ofElements := by
  intro inside texts holds
  rcases steady_expression.exists_nextElement holds with
    ⟨fault, refused⟩ | ⟨expression, others, remaining, later, expressionRead⟩
  · refine .inl ⟨fault, fun rest => ?_⟩
    simp only [ofElements, refused]
  cases expression with
  | none =>
      refine .inl ⟨.misfit (.wrongLength 0 "CalculationRecord" 2), fun rest => ?_⟩
      simp only [ofElements, expressionRead]
  | some expression =>
      rcases steady_binary64.exists_nextElement later with
        ⟨fault, refused⟩ | ⟨result, last, remaining, behind, resultRead⟩
      · refine .inl ⟨fault, fun rest => ?_⟩
        simp only [ofElements, expressionRead, refused]
      cases result with
      | none =>
          refine .inl ⟨.misfit (.wrongLength 1 "CalculationRecord" 2), fun rest => ?_⟩
          simp only [ofElements, expressionRead, resultRead]
      | some result =>
          refine .inr ⟨⟨expression, result⟩, last, remaining, behind, fun rest => ?_⟩
          simp only [ofElements, expressionRead, resultRead]

end CalculationMembers

theorem follows_calculation :
    Follows CalculationMembers.fields .none CalculationMembers.toCalculation calculationReader :=
  fun _ _ holds => gives_record _ _ (CalculationMembers.ofMembers_holds holds)

theorem steady_calculation : Steady calculationReader :=
  steady_record _ _ CalculationMembers.steadyElements
    fun _ _ holds => ⟨_, CalculationMembers.ofMembers_holds holds⟩

end Keypad
