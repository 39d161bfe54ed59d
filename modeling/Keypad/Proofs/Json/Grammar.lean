import Keypad.Json.Layout
import Keypad.Proofs.Json.Reads

/-!
Contract: which texts are well-formed JSON.

The grammar knows nothing of what a value is wanted for. A number may be of any size, and the
escapes of a string need no partners, so not every string of the grammar has a value.

Owns:
- numbers, strings and values as texts, nested to any depth;
- parts of a text with the blanks around them, of which arrays and objects are made;
- whole texts, and the members of objects;
- how a value begins.

Does not own: readers.
-/

namespace Keypad.Json

/-! ## Numbers and strings -/

def IsNumber (text : List Char) : Prop := ∃ literal, NumberLiteral.Spells text literal

/-- The inside of a string: plain characters, and escapes by letter or by number. -/
inductive IsInside : List Char → Prop where
  | nil : IsInside []
  | plain {character : Char} {rest : List Char} (shown : 0x20 ≤ character.toNat)
      (notMark : character ≠ '"') (notBackslash : character ≠ '\\') (others : IsInside rest) :
      IsInside (character :: rest)
  | letter {letter : Char} {rest : List Char} (stands : (ofEscapeLetter? letter).isSome = true)
      (others : IsInside rest) : IsInside ('\\' :: letter :: rest)
  | number {digits rest : List Char} {unit : Nat} (quad : SpellsUnit digits unit)
      (others : IsInside rest) : IsInside ('\\' :: 'u' :: (digits ++ rest))

def IsString (text : List Char) : Prop :=
  ∃ inside, text = '"' :: (inside ++ ['"']) ∧ IsInside inside

/-! ## Arrays and objects -/

/-- A part of a text and what stands around it. -/
structure Padded where
  before : List Char
  core : List Char
  after : List Char
  deriving Inhabited

def Padded.text (padded : Padded) : List Char := padded.before ++ (padded.core ++ padded.after)

/-- Nothing but blanks stands around the part. -/
structure Padded.Spaced (padded : Padded) : Prop where
  before : padded.before.all isBlank = true
  after : padded.after.all isBlank = true

/-- A member of an object as it stands in a text: its key, a colon and its value. -/
structure MemberText where
  key : Padded
  value : Padded

/-- What stands before the value of a member. -/
def MemberText.lead (member : MemberText) : List Char := member.key.text ++ [':']

def MemberText.text (member : MemberText) : List Char := member.lead ++ member.value.text

/-- The elements between their brackets; the last blanks matter only where there is no element. -/
def arrayText (elements : List Padded) (blanks : List Char) : List Char :=
  '[' :: ([','].intercalate (elements.map Padded.text) ++ (blanks ++ [']']))

def objectText (members : List MemberText) (blanks : List Char) : List Char :=
  '\x7b' :: ([','].intercalate (members.map MemberText.text) ++ (blanks ++ ['\x7d']))

/-- The texts of values. -/
inductive IsValue : List Char → Prop where
  | null : IsValue ['n', 'u', 'l', 'l']
  | yes : IsValue ['t', 'r', 'u', 'e']
  | no : IsValue ['f', 'a', 'l', 's', 'e']
  | number {text : List Char} (isNumber : IsNumber text) : IsValue text
  | string {text : List Char} (isString : IsString text) : IsValue text
  | array {elements : List Padded} {blanks : List Char} (blank : blanks.all isBlank = true)
      (spaced : ∀ element ∈ elements, element.Spaced)
      (values : ∀ element ∈ elements, IsValue element.core) : IsValue (arrayText elements blanks)
  | object {members : List MemberText} {blanks : List Char} (blank : blanks.all isBlank = true)
      (spaced : ∀ member ∈ members, member.key.Spaced ∧ member.value.Spaced)
      (keys : ∀ member ∈ members, IsString member.key.core)
      (values : ∀ member ∈ members, IsValue member.value.core) :
      IsValue (objectText members blanks)

/-- A whole text that is one value with blanks around it. -/
def IsJson (text : String) : Prop :=
  ∃ padded : Padded, padded.Spaced ∧ IsValue padded.core ∧ text.toList = padded.text

/-- A member that may stand in an object. -/
structure MemberText.WellFormed (member : MemberText) : Prop where
  keySpaced : member.key.Spaced
  valueSpaced : member.value.Spaced
  key : IsString member.key.core
  value : IsValue member.value.core

/-- An object with the given members in this order. -/
def SpellsObject (spelling : List Char) (members : List MemberText) : Prop :=
  ∃ blanks, blanks.all isBlank = true ∧ (∀ member ∈ members, member.WellFormed) ∧
    spelling = objectText members blanks

theorem SpellsObject.isValue {spelling : List Char} {members : List MemberText}
    (spelled : SpellsObject spelling members) : IsValue spelling := by
  obtain ⟨blanks, blank, wellFormed, rfl⟩ := spelled
  apply IsValue.object blank
  · exact fun member isMember => ⟨(wellFormed member isMember).keySpaced,
      (wellFormed member isMember).valueSpaced⟩
  · exact fun member isMember => (wellFormed member isMember).key
  · exact fun member isMember => (wellFormed member isMember).value

/-! ## Strings with a value -/

theorem SpellsCharacter.isInside {spelling rest : List Char} {character : Char}
    (spelled : SpellsCharacter spelling character) (others : IsInside rest) :
    IsInside (spelling ++ rest) := by
  cases spelled with
  | plain shown notMark notBackslash => exact .plain shown notMark notBackslash others
  | letter stands => exact .letter (by rw [stands]; rfl) others
  | number quad _ _ => exact .number quad others
  | surrogates leadingQuad _ trailingQuad _ =>
      have trailing := IsInside.number trailingQuad others
      have both := IsInside.number leadingQuad trailing
      simpa using both

theorem Spells.isInside {spelling characters : List Char} (spelled : Spells spelling characters) :
    IsInside spelling := by
  induction spelled with
  | nil => exact .nil
  | cons first _ inductionHypothesis => exact first.isInside inductionHypothesis

/-- A string that has a value is a string of the grammar. -/
theorem IsText.isString {spelling : List Char} {value : String} (spelled : IsText spelling value) :
    IsString spelling := by
  obtain ⟨inside, rfl, spelledInside⟩ := spelled
  exact ⟨inside, rfl, spelledInside.isInside⟩

/-! ## Written values -/

theorem isValue_writeNatural (value : Nat) : IsValue (writeNatural value) :=
  .number ⟨.ofNat value, NumberLiteral.text_ofNat value ▸
    NumberLiteral.spells_text (NumberLiteral.wellFormed_ofNat value)⟩

theorem isValue_writeText (value : String) : IsValue (writeText value) :=
  .string (isText_writeText value).isString

/-- A part of a text with nothing around it. -/
def Padded.bare (core : List Char) : Padded := ⟨[], core, []⟩

theorem Padded.spaced_bare (core : List Char) : (Padded.bare core).Spaced := ⟨rfl, rfl⟩

theorem isValue_writeArray {elements : List (List Char)}
    (values : ∀ element ∈ elements, IsValue element) : IsValue (writeArray elements) := by
  have isArray : IsValue (arrayText (elements.map Padded.bare) []) := by
    apply IsValue.array List.all_nil
    · exact List.forall_mem_map.mpr fun element _ => Padded.spaced_bare element
    · exact List.forall_mem_map.mpr values
  have textEq : Padded.text ∘ Padded.bare = id := by
    funext element
    simp [Padded.text, Padded.bare]
  rw [arrayText, List.map_map, textEq, List.map_id, List.nil_append] at isArray
  exact isArray

/-- A member as it is written in the compact layout. -/
def MemberText.written (entry : String × List Char) : MemberText :=
  ⟨.bare (writeText entry.1), .bare entry.2⟩

theorem spellsObject_writeObject {members : List (String × List Char)}
    (values : ∀ entry ∈ members, IsValue entry.2) :
    SpellsObject (writeObject members) (members.map MemberText.written) := by
  refine ⟨[], List.all_nil, ?_, ?_⟩
  · refine List.forall_mem_map.mpr fun entry isEntry => ?_
    exact ⟨Padded.spaced_bare _, Padded.spaced_bare _, (isText_writeText entry.1).isString,
      values entry isEntry⟩
  · have textEq : MemberText.text ∘ MemberText.written =
        fun entry => writeMember entry.1 entry.2 := by
      funext entry
      simp [MemberText.text, MemberText.lead, MemberText.written, Padded.text, Padded.bare,
        writeMember]
    rw [writeObject, objectText, List.map_map, textEq, List.nil_append]

/-! ## How values begin -/

theorem IsNumber.begins {text : List Char} (isNumber : IsNumber text) :
    ∃ first tail, text = first :: tail ∧ (first = '-' ∨ first.isDigit = true) := by
  obtain ⟨literal, spelled⟩ := isNumber
  have begins := spelled.beginsNumber []
  rw [List.append_nil] at begins
  cases text with
  | nil => cases begins
  | cons first tail => exact ⟨first, tail, rfl, by simpa [beginsNumber] using begins⟩

theorem isBlank_eq_false {first : Char} (begins : first = '-' ∨ first.isDigit = true) :
    isBlank first = false := by
  rw [Bool.eq_false_iff]
  intro blank
  rcases isBlank_eq_true blank with rfl | rfl | rfl | rfl <;> simp at begins

/-- A value begins with neither a blank nor the end of an array. -/
theorem IsValue.begins {text : List Char} (isValue : IsValue text) :
    ∃ first tail, text = first :: tail ∧ isBlank first = false ∧ first ≠ ']' := by
  cases isValue with
  | null => exact ⟨_, _, rfl, rfl, by decide⟩
  | yes => exact ⟨_, _, rfl, rfl, by decide⟩
  | no => exact ⟨_, _, rfl, rfl, by decide⟩
  | number isNumber =>
      obtain ⟨first, tail, rfl, begins⟩ := isNumber.begins
      refine ⟨first, tail, rfl, isBlank_eq_false begins, ?_⟩
      rintro rfl
      simp at begins
  | string isString =>
      obtain ⟨inside, rfl, _⟩ := isString
      exact ⟨_, _, rfl, rfl, by decide⟩
  | array _ _ _ => exact ⟨_, _, rfl, rfl, by decide⟩
  | object _ _ _ _ => exact ⟨_, _, rfl, rfl, by decide⟩

theorem IsValue.skipBlanks_eq {text blanks : List Char} (isValue : IsValue text)
    (blank : blanks.all isBlank = true) (rest : List Char) :
    skipBlanks (blanks ++ (text ++ rest)) = text ++ rest := by
  obtain ⟨first, tail, rfl, notBlank, _⟩ := isValue.begins
  rw [skipBlanks_append blank]
  simp [skipBlanks, notBlank]

end Keypad.Json
