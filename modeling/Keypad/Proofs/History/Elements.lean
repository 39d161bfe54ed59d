import Keypad.History.Slot
import Keypad.Proofs.History.Records
import Keypad.Proofs.Storage.Laws

/-!
Contract: a history is loaded record by record, and all of it or nothing.

Owns:
- that the text of an array is decoded as its elements are, each for itself and in order;
- what is loaded from a slot that holds such an array.

Does not own: slots that hold another text.
-/

namespace Keypad

open Json

/-! ## Elements in order -/

section Decoding

variable {α ε β : Type} {decode : α → Except ε β} {texts : List α}

theorem mapM_of_forall₂ {values : List β}
    (decoded : List.Forall₂ (fun text value => decode text = .ok value) texts values) :
    texts.mapM decode = .ok values := by
  induction decoded with
  | nil => rfl
  | cons first _ inductionHypothesis =>
      rw [List.mapM_cons, first, inductionHypothesis]
      rfl

/-- Decoding in order stops at an element that is refused. -/
theorem exists_mapM_error (refused : ∃ text ∈ texts, ∃ fault, decode text = .error fault) :
    ∃ text ∈ texts, ∃ fault, decode text = .error fault ∧ texts.mapM decode = .error fault := by
  induction texts with
  | nil => simp at refused
  | cons first later inductionHypothesis =>
      cases found : decode first with
      | error fault =>
          refine ⟨first, List.mem_cons_self, fault, found, ?_⟩
          rw [List.mapM_cons, found]
          rfl
      | ok value =>
          have refusedLater : ∃ text ∈ later, ∃ fault, decode text = .error fault := by
            simpa [found] using refused
          obtain ⟨text, isLater, fault, isRefused, stopped⟩ := inductionHypothesis refusedLater
          refine ⟨text, List.mem_cons_of_mem _ isLater, fault, isRefused, ?_⟩
          rw [List.mapM_cons, found, stopped]
          rfl

theorem mapM_map_congr {γ : Type} {core : α → γ} {read : γ → Except ε β}
    (same : ∀ text ∈ texts, read (core text) = decode text) :
    (texts.map core).mapM read = texts.mapM decode := by
  induction texts with
  | nil => rfl
  | cons first later inductionHypothesis =>
      rw [List.map_cons, List.mapM_cons, List.mapM_cons, same first List.mem_cons_self,
        inductionHypothesis fun text isLater => same text (List.mem_cons_of_mem _ isLater)]

end Decoding

/-! ## Arrays of records -/

/-- The text of an array whose elements have the given texts. -/
def elementsText (texts : List String) : String := "[" ++ ",".intercalate texts ++ "]"

/-- The elements of a history are decoded each for itself, in order, up to the first that is
refused. -/
theorem decodeHistory_elementsText {texts : List String}
    (wellFormed : ∀ text ∈ texts, IsJson text) :
    decodeHistory (elementsText texts) = texts.mapM Calculation.decode := by
  choose! padded spaced isValue textEq using wellFormed
  have partsEq : (texts.map fun text => (padded text).text) = texts.map String.toList :=
    List.map_congr_left fun text isText => (textEq text isText).symm
  have holds : Holds IsElement true
      ([','].intercalate (texts.map fun text => (padded text).text) ++ [])
      (texts.map fun text => (padded text).core) :=
    holds_intercalate padded (fun text => (padded text).core) spaced
      (fun text isText => ⟨rfl, isValue text isText⟩) List.all_nil
  rw [partsEq, List.append_nil] at holds
  have same : ∀ text ∈ texts,
      verdict calculationReader (padded text).core = Calculation.decode text := fun text isText =>
    ((steady_calculation.gives (isValue text isText)).readAll (spaced text isText).before
      (spaced text isText).after (textEq text isText)).symm
  have wholeEq : elementsText texts =
      String.ofList ('[' :: ([','].intercalate (texts.map String.toList) ++ [']'])) := by
    apply String.toList_injective
    simp [elementsText, String.toList_intercalate]
  rw [← mapM_map_congr same, wholeEq]
  exact (steady_calculation.gives_array holds).readAll_ofList

namespace History

variable {σ : Type} [KeyValueStore σ] {store : σ} {slot : String} {texts : List String}

/-- Where all elements of the array in a slot are records by themselves, these are loaded in their
order. Where some element is refused by itself, the load fails with the fault of such an element,
and the history counts as empty, whatever the other elements are. -/
theorem tryLoad_elementsText (wellFormed : ∀ text ∈ texts, IsJson text)
    (held : KeyValueStore.get store slot = .ok (some (elementsText texts))) :
    (∀ history,
        List.Forall₂ (fun text calculation => Calculation.decode text = .ok calculation) texts
          history →
        tryLoad store slot = .ok history) ∧
      ((∃ text ∈ texts, ∃ fault, Calculation.decode text = .error fault) →
        (∃ text ∈ texts, ∃ fault, Calculation.decode text = .error fault ∧
          tryLoad store slot = .error (.undecodable fault)) ∧
        load store slot = []) := by
  have decoded := decodeHistory_elementsText wellFormed
  constructor
  · intro history records
    simp only [tryLoad, held, decoded, mapM_of_forall₂ records]
  · intro refused
    obtain ⟨text, isText, fault, isRefused, stopped⟩ := exists_mapM_error refused
    have failed : tryLoad store slot = .error (.undecodable fault) := by
      simp only [tryLoad, held, decoded, stopped]
    refine ⟨⟨text, isText, fault, isRefused, failed⟩, ?_⟩
    simp only [load, failed]

/-- A record and one of its items in the form of arrays, with blanks around the record. -/
def listedRecord : String := " [[\x7b\"number\":1\x7d,[null,\"+\"]],2]\n"

/-- A record with its members the other way round. -/
def turnedRecord : String := "\x7b\"result\":3,\"expression\":[]\x7d"

/-- A record with an item that has no content. -/
def hollowRecord : String := "[[\x7b\x7d],4]"

theorem isJson_listedRecord : IsJson listedRecord := by
  have item : IsValue (writeObject [("number", writeNatural 1)]) :=
    (spellsObject_writeObject (by simp [isValue_writeNatural])).isValue
  have other : IsValue (writeArray [['n', 'u', 'l', 'l'], writeText "+"]) :=
    isValue_writeArray (by simp [IsValue.null, isValue_writeText])
  have items : IsValue (writeArray [writeObject [("number", writeNatural 1)],
      writeArray [['n', 'u', 'l', 'l'], writeText "+"]]) :=
    isValue_writeArray (by simp [item, other])
  have record : IsValue (writeArray [writeArray [writeObject [("number", writeNatural 1)],
      writeArray [['n', 'u', 'l', 'l'], writeText "+"]], writeNatural 2]) :=
    isValue_writeArray (by simp [items, isValue_writeNatural])
  exact ⟨⟨[' '], _, ['\n']⟩, ⟨rfl, rfl⟩, record, by decide +kernel⟩

theorem isJson_turnedRecord : IsJson turnedRecord := by
  have items : IsValue (writeArray []) := isValue_writeArray (List.forall_mem_nil _)
  have record : IsValue (writeObject [("result", writeNatural 3), ("expression", writeArray [])]) :=
    (spellsObject_writeObject (by simp [items, isValue_writeNatural])).isValue
  exact ⟨.bare _, Padded.spaced_bare _, record, by decide +kernel⟩

theorem isJson_hollowRecord : IsJson hollowRecord := by
  have item : IsValue (writeObject []) := (spellsObject_writeObject (List.forall_mem_nil _)).isValue
  have items : IsValue (writeArray [writeObject []]) := isValue_writeArray (by simp [item])
  have record : IsValue (writeArray [writeArray [writeObject []], writeNatural 4]) :=
    isValue_writeArray (by simp [items, isValue_writeNatural])
  exact ⟨.bare _, Padded.spaced_bare _, record, by decide +kernel⟩

/-- A store in memory whose slot holds an array of records. -/
def holding (texts : List String) : MemoryStore :=
  ⟨Slots.empty.insert defaultSlot (elementsText texts)⟩

theorem get_holding (texts : List String) :
    KeyValueStore.get (holding texts) defaultSlot = .ok (some (elementsText texts)) :=
  congrArg Except.ok (Slots.get?_insert _ _ _)

/-- Two records that are loaded, and the same two with a bad one between them. -/
theorem tryLoad_elementsText_records :
    tryLoad (holding [listedRecord, turnedRecord]) defaultSlot =
        .ok [⟨⟨[.number (.ofNat 1), .operator .add]⟩, .ofNat 2⟩, ⟨⟨[]⟩, .ofNat 3⟩] ∧
      (∃ fault, tryLoad (holding [listedRecord, hollowRecord, turnedRecord]) defaultSlot =
        .error (.undecodable fault)) ∧
      load (holding [listedRecord, hollowRecord, turnedRecord]) defaultSlot = [] := by
  have good : ∀ text ∈ [listedRecord, turnedRecord], IsJson text := by
    simp [isJson_listedRecord, isJson_turnedRecord]
  have mixed : ∀ text ∈ [listedRecord, hollowRecord, turnedRecord], IsJson text := by
    simp [isJson_listedRecord, isJson_hollowRecord, isJson_turnedRecord]
  have listed : Calculation.decode listedRecord =
      .ok ⟨⟨[.number (.ofNat 1), .operator .add]⟩, .ofNat 2⟩ := by
    decide +kernel
  have turned : Calculation.decode turnedRecord = .ok ⟨⟨[]⟩, .ofNat 3⟩ := by
    decide +kernel
  have hollow : Calculation.decode hollowRecord = .error (.misfit .itemWithoutContent) := by
    decide +kernel
  have loaded := (tryLoad_elementsText good (get_holding _)).1 _
    (.cons listed (.cons turned .nil))
  obtain ⟨⟨_, _, fault, _, failed⟩, emptied⟩ :=
    (tryLoad_elementsText mixed (get_holding _)).2 ⟨hollowRecord, by simp, _, hollow⟩
  exact ⟨loaded, ⟨fault, failed⟩, emptied⟩

end History

end Keypad
