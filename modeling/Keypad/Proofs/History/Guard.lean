import Mathlib.Data.List.Forall2
import Keypad.Proofs.History.Slot
import Keypad.Proofs.Json.Refused

/-!
Contract: a history is refused before it is written exactly when it could not be read again.

The text of a number that is not finite is `null`. As a result it is a value of the wrong type; as an
item it is an item with neither a number nor an operator.

Owns:
- the fault for which the text of a history with such a number is refused;
- calculations that resemble each other: the same kinds of items, the same operators and signs;
- that whatever is loaded can be saved and loaded again.

Does not own: which numbers are read back unchanged.
-/

namespace Keypad

open Json

/-! ## What cannot be read again -/

theorem writeNumber_of_isFinite_eq_false {value : Binary64} (beyond : value.isFinite = false) :
    writeNumber value = nullText := by
  cases value with
  | nan => rfl
  | infinite negative => cases negative <;> rfl
  | finite negative magnitude => cases beyond

theorem refuses_item {item : Item} (unencodable : item.isEncodable = false) :
    Refuses itemReader item.encode (.misfit .itemWithoutContent) := by
  cases item with
  | operator operation => cases unencodable
  | number value =>
      have gathers : Gathers ItemMembers.choose [("number", writeNumber value)] .none
          ⟨some none, none⟩ := by
        rw [writeNumber_of_isFinite_eq_false unencodable]
        exact .cons ((readsMember_null binary64).map _) (.nil _)
      have rejected : ItemMembers.toItem ⟨some none, none⟩ =
          .error (.misfit .itemWithoutContent) := rfl
      refine Reads.refuses (reads_writeObject ItemMembers.ofElements_length
        (fun read => Nat.le_of_lt (membersFrom_length read)) ?_) rejected
      exact membersFrom_written rfl rfl rfl gathers

/-- Before the first element that fails a test stand elements that pass it. -/
theorem exists_first_failing {α : Type} {test : α → Bool} {list : List α}
    (failing : ∃ element ∈ list, test element = false) :
    ∃ passing first later, list = passing ++ first :: later ∧
      (∀ element ∈ passing, test element = true) ∧ test first = false := by
  obtain ⟨element, member, fails⟩ := failing
  cases found : list.find? fun element => !test element with
  | none =>
      have passes := List.find?_eq_none.mp found element member
      simp [fails] at passes
  | some first =>
      obtain ⟨failsFirst, passing, later, parts, passes⟩ := List.find?_eq_some_iff_append.mp found
      refine ⟨passing, first, later, parts, fun element member => ?_, by simpa using failsFirst⟩
      simpa using passes element member

theorem refuses_expression {expression : Expression}
    (unencodable : ∃ item ∈ expression.items, item.isEncodable = false) :
    Refuses expressionReader expression.encode (.misfit .itemWithoutContent) := by
  obtain ⟨passing, first, later, parts, encodable, refused⟩ := exists_first_failing unencodable
  have begins : beginsValue first.encode = true := by
    cases first <;> rfl
  unfold Expression.encode
  rw [parts]
  exact (refuses_writeArray (fun item member => reads_item (encodable item member)) begins
    (refuses_item refused)).map Expression.mk

namespace Calculation

/-- Why a calculation that cannot be stored cannot be read: its items come first. -/
def refusal (calculation : Calculation) : Fault :=
  if calculation.expression.items.all Item.isEncodable then
    .misfit (.wrongType .null .number)
  else
    .misfit .itemWithoutContent

theorem isEncodable_iff_numbers (calculation : Calculation) :
    calculation.isEncodable = true ↔ ∀ value ∈ calculation.numbers, value.isFinite = true := by
  constructor
  · intro encodable value member
    exact isFinite_of_mem_numbers encodable member
  · intro finite
    rw [isEncodable_iff]
    refine ⟨finite _ List.mem_cons_self, fun item member => ?_⟩
    cases item with
    | operator operation => rfl
    | number value =>
        exact finite value (List.mem_cons_of_mem _ (List.mem_filterMap.mpr ⟨_, member, rfl⟩))

theorem isEncodable_eq_false_iff (calculation : Calculation) :
    calculation.isEncodable = false ↔ ∃ value ∈ calculation.numbers, value.isFinite = false := by
  rw [← Bool.not_eq_true, isEncodable_iff_numbers]
  simp

end Calculation

theorem refuses_calculation {calculation : Calculation}
    (unencodable : calculation.isEncodable = false) :
    Refuses calculationReader calculation.encode calculation.refusal := by
  have stops : Stops CalculationMembers.choose calculation.refusal
      ("expression", calculation.expression.encode)
      [("result", writeNumber calculation.result)] .none := by
    by_cases encodable : ∀ item ∈ calculation.expression.items, item.isEncodable = true
    · have beyond : calculation.result.isFinite = false := by
        rw [← Bool.not_eq_true]
        intro finite
        rw [calculation.isEncodable_iff.mpr ⟨finite, encodable⟩] at unencodable
        cases unencodable
      have refusalEq : calculation.refusal = .misfit (.wrongType .null .number) :=
        if_pos (List.all_eq_true.mpr encodable)
      rw [refusalEq, writeNumber_of_isFinite_eq_false beyond]
      exact .later ((ReadsMember.of_reads (reads_expression encodable)).map _)
        (.here ((RefusesMember.of_refuses refuses_binary64_null).map _) [])
    · have refusalEq : calculation.refusal = .misfit .itemWithoutContent :=
        if_neg (by simpa using encodable)
      rw [refusalEq]
      exact .here ((RefusesMember.of_refuses (refuses_expression (by simpa using encodable))).map _) _
  refine refuses_writeObject CalculationMembers.ofElements_length
    CalculationMembers.ofMembers_length fun rest => ?_
  unfold CalculationMembers.ofMembers
  rw [membersFrom_refused stops]

/-- The text of a history is refused for its first calculation that cannot be stored. -/
theorem decodeHistory_of_unencodable {accepted later : List Calculation} {refused : Calculation}
    (encodable : ∀ calculation ∈ accepted, calculation.isEncodable = true)
    (unencodable : refused.isEncodable = false) :
    decodeHistory (String.ofList (encodeHistory (accepted ++ refused :: later))) =
      .error refused.refusal :=
  (refuses_writeArray (fun calculation member => reads_calculation (encodable calculation member))
    rfl (refuses_calculation unencodable)).readAll

/-! ## What is read again -/

/-- Two finite values of the same sign. -/
inductive Binary64.Resembles : Binary64 → Binary64 → Prop where
  | finite (negative : Bool) (before after : Magnitude) :
      Binary64.Resembles (.finite negative before) (.finite negative after)

/-- Two items of the same kind: the same operator, or numbers that resemble each other. -/
inductive Item.Resembles : Item → Item → Prop where
  | number {before after : Binary64} (resembles : before.Resembles after) :
      Item.Resembles (.number before) (.number after)
  | operator (operation : Operator) : Item.Resembles (.operator operation) (.operator operation)

/-- Two calculations whose items resemble each other one by one, and whose results do. -/
structure Calculation.Resembles (before after : Calculation) : Prop where
  items : List.Forall₂ Item.Resembles before.expression.items after.expression.items
  result : before.result.Resembles after.result

theorem Binary64.resembles_reread {value : Binary64} (finite : value.isFinite = true) :
    value.Resembles (Json.reread value) := by
  cases value with
  | nan => cases finite
  | infinite negative => cases finite
  | finite negative magnitude =>
      obtain ⟨_, size, rereadEq, _⟩ := reads_writeNumber negative magnitude
      rw [rereadEq]
      exact .finite negative magnitude size

theorem Calculation.resembles_reread {calculation : Calculation}
    (encodable : calculation.isEncodable = true) : calculation.Resembles calculation.reread := by
  obtain ⟨resultFinite, itemsEncodable⟩ := calculation.isEncodable_iff.mp encodable
  refine ⟨?_, Binary64.resembles_reread resultFinite⟩
  show List.Forall₂ Item.Resembles _ (calculation.expression.items.map Item.reread)
  rw [List.forall₂_map_right_iff]
  refine List.forall₂_same.mpr fun item member => ?_
  cases item with
  | number value => exact .number (Binary64.resembles_reread (itemsEncodable _ member))
  | operator operation => exact .operator operation

/-- The text of a history that can be stored is read as a history that resembles it. -/
theorem exists_decodeHistory {history : List Calculation}
    (encodable : ∀ calculation ∈ history, calculation.isEncodable = true) :
    ∃ again, decodeHistory (String.ofList (encodeHistory history)) = .ok again ∧
      List.Forall₂ Calculation.Resembles history again := by
  refine ⟨_, decodeHistory_encodeHistory encodable, ?_⟩
  rw [List.forall₂_map_right_iff]
  exact List.forall₂_same.mpr fun calculation member =>
    Calculation.resembles_reread (encodable calculation member)

namespace History

variable {σ τ : Type} [KeyValueStore σ] [KeyValueStore τ] {store after : σ} {slot : String}
  {history : List Calculation}

/-- A history is refused for its first calculation that cannot be stored, and the store is not
asked. -/
theorem trySave_of_unencodable {accepted later : List Calculation} {refused : Calculation}
    (encodable : ∀ calculation ∈ accepted, calculation.isEncodable = true)
    (unencodable : refused.isEncodable = false) (store : σ) (slot : String) :
    trySave store slot (accepted ++ refused :: later) =
      (.error (.unencodable accepted.length), store) := by
  have first : (accepted ++ refused :: later).findIdx?
      (fun calculation => !calculation.isEncodable) = some accepted.length := by
    rw [List.findIdx?_append, findIdx?_isEncodable encodable, List.findIdx?_cons]
    simp [unencodable]
  unfold trySave
  rw [first]

/-- Saving to a store that takes the text: the history is refused, with the place of its first
calculation that has a number that is not finite, and the store is left as it was, exactly when its
text could not be read as a history; in all other cases the text is written, and it is read as a
history of the same length with the same kinds of items, the same operators, and finite numbers of
the same signs. -/
theorem trySave_unencodable_iff
    (taken : KeyValueStore.set store slot (String.ofList (encodeHistory history)) =
      (.ok (), after)) :
    ((∃ accepted refused later, history = accepted ++ refused :: later ∧
        (∀ calculation ∈ accepted, ∀ value ∈ calculation.numbers, value.isFinite = true) ∧
        (∃ value ∈ refused.numbers, value.isFinite = false) ∧
        trySave store slot history = (.error (.unencodable accepted.length), store)) ↔
      ∃ fault, decodeHistory (String.ofList (encodeHistory history)) = .error fault) ∧
    ((∀ fault, decodeHistory (String.ofList (encodeHistory history)) ≠ .error fault) →
      trySave store slot history = (.ok (), after) ∧
        ∃ again, decodeHistory (String.ofList (encodeHistory history)) = .ok again ∧
          again.length = history.length ∧ List.Forall₂ Calculation.Resembles history again) := by
  by_cases encodable : ∀ calculation ∈ history, calculation.isEncodable = true
  · obtain ⟨again, read, resembles⟩ := exists_decodeHistory encodable
    have saved : trySave store slot history = (.ok (), after) := by
      rw [trySave_of_isEncodable store slot encodable, taken]
    refine ⟨iff_of_false ?_ ?_, fun _ => ⟨saved, again, read, resembles.length_eq.symm, resembles⟩⟩
    · rintro ⟨accepted, refused, later, _, _, _, failed⟩
      rw [saved] at failed
      cases failed
    · rintro ⟨fault, unread⟩
      rw [read] at unread
      cases unread
  · have unencodable : ∃ calculation ∈ history, calculation.isEncodable = false := by
      simpa using encodable
    obtain ⟨accepted, refused, later, rfl, accepts, refuses⟩ := exists_first_failing unencodable
    have unread : decodeHistory (String.ofList (encodeHistory (accepted ++ refused :: later))) =
        .error refused.refusal := decodeHistory_of_unencodable accepts refuses
    refine ⟨iff_of_true ⟨accepted, refused, later, rfl, ?_, ?_, ?_⟩ ⟨_, unread⟩, fun readable => ?_⟩
    · exact fun calculation member =>
        calculation.isEncodable_iff_numbers.mp (accepts calculation member)
    · exact refused.isEncodable_eq_false_iff.mp refuses
    · exact trySave_of_unencodable accepts refuses store slot
    · exact absurd unread (readable _)

/-- A calculation that overflowed, behind one that did not. -/
def overflowed : List Calculation :=
  [eleventh, ⟨⟨[.number (.infinite false)]⟩, .infinite false⟩]

theorem trySave_unencodable_iff_overflowed :
    ∃ after,
      KeyValueStore.set MemoryStore.empty defaultSlot
        (String.ofList (encodeHistory overflowed)) = (.ok (), after) ∧
      ∃ accepted refused later, overflowed = accepted ++ refused :: later ∧
        (∃ value ∈ refused.numbers, value.isFinite = false) ∧
        trySave MemoryStore.empty defaultSlot overflowed =
          (.error (.unencodable accepted.length), MemoryStore.empty) := by
  have taken : KeyValueStore.set MemoryStore.empty defaultSlot
      (String.ofList (encodeHistory overflowed)) = (.ok (), _) := rfl
  have unread : decodeHistory (String.ofList (encodeHistory overflowed)) =
      .error (.misfit .itemWithoutContent) := by
    decide +kernel
  obtain ⟨accepted, refused, later, parts, _, beyond, refusedSave⟩ :=
    (trySave_unencodable_iff taken).1.mpr ⟨_, unread⟩
  exact ⟨_, taken, accepted, refused, later, parts, beyond, refusedSave⟩

/-- Whatever text a history was loaded from, its numbers are finite, a store that takes its text saves
it, and then a history is loaded that resembles it record by record. -/
theorem tryLoad_after_resaving [RetainingStore σ] {source : τ} {sourceSlot : String}
    (loaded : tryLoad source sourceSlot = .ok history)
    (taken : KeyValueStore.set store slot (String.ofList (encodeHistory history)) =
      (.ok (), after)) :
    (∀ calculation ∈ history, ∀ value ∈ calculation.numbers, value.isFinite = true) ∧
      trySave store slot history = (.ok (), after) ∧
      ∃ again, decodeHistory (String.ofList (encodeHistory history)) = .ok again ∧
        tryLoad after slot = .ok again ∧ again.length = history.length ∧
        List.Forall₂ Calculation.Resembles history again := by
  have encodable : ∀ calculation ∈ history, calculation.isEncodable = true := by
    have sameHistory : load source sourceSlot = history := by
      unfold load
      rw [loaded]
    rw [← sameHistory]
    exact isEncodable_of_load source sourceSlot
  obtain ⟨again, read, resembles⟩ := exists_decodeHistory encodable
  refine ⟨fun calculation member => ?_, ?_, again, read, ?_, resembles.length_eq.symm, resembles⟩
  · exact calculation.isEncodable_iff_numbers.mp (encodable calculation member)
  · rw [trySave_of_isEncodable store slot encodable, taken]
  · unfold tryLoad
    rw [RetainingStore.get_set taken]
    dsimp only
    rw [read]

/-- A slot that another program may have written: records and items as arrays, unknown members, more
digits than a number holds. -/
def foreignSlot : MemoryStore :=
  ⟨Slots.empty.insert defaultSlot
    (" [ [ [[5e0], \x7b\"operator\":\"+\",\"seen\":[null]\x7d, " ++
      "\x7b\"number\":0.10000000000000000000001\x7d], 51e-1 ] ]")⟩

theorem tryLoad_after_resaving_foreign :
    ∃ history after again, tryLoad foreignSlot defaultSlot = .ok history ∧
      KeyValueStore.set MemoryStore.empty defaultSlot (String.ofList (encodeHistory history)) =
        (.ok (), after) ∧
      trySave MemoryStore.empty defaultSlot history = (.ok (), after) ∧
      tryLoad after defaultSlot = .ok again ∧ again.length = 1 ∧
      List.Forall₂ Calculation.Resembles history again := by
  have found : ((tryLoad foreignSlot defaultSlot).toOption.map List.length) = some 1 := by
    decide +kernel
  cases loaded : tryLoad foreignSlot defaultSlot with
  | error fault =>
      rw [loaded] at found
      cases found
  | ok history =>
      rw [loaded] at found
      have taken : KeyValueStore.set MemoryStore.empty defaultSlot
          (String.ofList (encodeHistory history)) = (.ok (), _) := rfl
      obtain ⟨_, saved, again, _, reloaded, sameLength, resembles⟩ :=
        tryLoad_after_resaving loaded taken
      refine ⟨history, _, again, rfl, taken, saved, reloaded, ?_, resembles⟩
      rw [sameLength]
      exact Option.some.inj found

end History

end Keypad
