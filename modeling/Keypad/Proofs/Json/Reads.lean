import Keypad.Json.Reader
import Keypad.Proofs.Json.NumberText
import Keypad.Proofs.Json.Spelling

/-!
Contract: readers take strings and written numbers for what they say.

Owns:
- what a reader gives for a text, a value or a fault, after any blanks and before anything that does
  not continue a number, and when it takes a text for a value;
- written numbers under their readers, and the value that a number is read back as;
- that natural numbers of 64 bits are read back;
- spelled strings, written ones among them, under their reader.

Does not own: arrays, objects.
-/

namespace Keypad.Json

/-! ## Blanks -/

theorem skipBlanks_append {blanks rest : List Char} (all : blanks.all isBlank = true) :
    skipBlanks (blanks ++ rest) = skipBlanks rest :=
  List.dropWhile_append_of_pos (List.all_eq_true.mp all)

theorem isBlank_eq_true {character : Char} (blank : isBlank character = true) :
    character = ' ' ∨ character = '\t' ∨ character = '\n' ∨ character = '\r' := by
  simpa [isBlank, or_assoc] using blank

theorem skipBlanks_start {blanks : List Char} (all : blanks.all isBlank = true) {first : Char}
    (notBlank : isBlank first = false) (rest : List Char) :
    skipBlanks (blanks ++ first :: rest) = first :: rest := by
  rw [skipBlanks_append all]
  simp [skipBlanks, notBlank]

/-- A text between two marks begins with the first of them. -/
theorem skipBlanks_enclosed (opening closing : Char) (notBlank : isBlank opening = false)
    {blanks : List Char} (all : blanks.all isBlank = true) (inside rest : List Char) :
    skipBlanks (blanks ++ (opening :: (inside ++ [closing]) ++ rest)) =
      opening :: (inside ++ closing :: rest) := by
  rw [List.cons_append, skipBlanks_start all notBlank]
  simp

theorem endsNumber_blanks {blanks rest : List Char} (all : blanks.all isBlank = true)
    (ends : endsNumber rest = true) : endsNumber (blanks ++ rest) = true := by
  cases blanks with
  | nil => exact ends
  | cons blank blanks =>
      have isBlank : isBlank blank = true := (List.all_eq_true.mp all) blank (List.mem_cons_self ..)
      rcases isBlank_eq_true isBlank with rfl | rfl | rfl | rfl <;> rfl

/-! ## What readers give -/

/-- What a reader gives for a text, after any blanks and before anything that does not continue a
number. -/
def Gives {α : Type} (reader : Reader α) (text : List Char) (outcome : Result α) : Prop :=
  ∀ blanks rest : List Char, blanks.all isBlank = true → endsNumber rest = true →
    reader.run (blanks ++ (text ++ rest)) = outcome.map fun value => (value, rest)

namespace Gives

variable {α β : Type} {reader : Reader α} {text : List Char} {outcome : Result α}

theorem run_eq (gives : Gives reader text outcome) {rest : List Char}
    (ends : endsNumber rest = true) :
    reader.run (text ++ rest) = outcome.map fun value => (value, rest) :=
  gives [] rest rfl ends

theorem andThen (gives : Gives reader text outcome) (next : α → Result β) :
    Gives (reader.andThen next) text (outcome.bind next) := by
  intro blanks rest all ends
  have run := gives blanks rest all ends
  cases outcome with
  | error fault => simp [Reader.andThen, run, Except.map, Except.bind]
  | ok value =>
      cases accepted : next value <;>
        simp [Reader.andThen, run, accepted, Except.map, Except.bind]

/-- A value that does not begin as `null` does is read by the reader of the values. -/
theorem optional {first : Char} {tail : List Char} (gives : Gives reader (first :: tail) outcome)
    (notBlank : isBlank first = false) (notNull : first ≠ 'n') :
    Gives (optional reader) (first :: tail) (outcome.map some) := by
  intro blanks rest all ends
  have run := gives.run_eq ends
  have startEq : skipBlanks (blanks ++ (first :: tail ++ rest)) = first :: (tail ++ rest) :=
    skipBlanks_start all notBlank _
  rw [List.cons_append] at run
  simp only [Json.optional, startEq]
  cases outcome <;> simp [notNull, run, Except.map]

/-- A whole text that is nothing but a value with blanks around it. -/
theorem readAll (gives : Gives reader text outcome) {before after : List Char}
    (beforeBlank : before.all isBlank = true) (afterBlank : after.all isBlank = true)
    {document : String} (textEq : document.toList = before ++ (text ++ after)) :
    readAll reader document = outcome := by
  have ends : endsNumber (after ++ []) = true := endsNumber_blanks afterBlank rfl
  have onlyBlanks : skipBlanks (after ++ []) = [] := skipBlanks_append afterBlank
  rw [List.append_nil] at ends onlyBlanks
  have run := gives before after beforeBlank ends
  unfold Json.readAll
  rw [textEq, run]
  cases outcome <;> simp [Except.map, onlyBlanks]

theorem readAll_ofList (gives : Gives reader text outcome) :
    Json.readAll reader (String.ofList text) = outcome :=
  gives.readAll List.all_nil List.all_nil (by simp)

end Gives

/-! ## Readers of written values -/

/-- Whether a text begins as a written value does. -/
def beginsValue : List Char → Bool
  | [] => false
  | first :: _ =>
      first = '"' || first = '[' || first = '\x7b' || first = '-' || first.isDigit

/-- A reader takes a text for a value, after any blanks and before anything that does not continue
a number. -/
structure Reads {α : Type} (reader : Reader α) (text : List Char) (value : α) : Prop where
  begins : beginsValue text = true
  run : ∀ blanks rest : List Char, blanks.all isBlank = true → endsNumber rest = true →
    reader.run (blanks ++ (text ++ rest)) = .ok (value, rest)

theorem isBlank_of_beginsValue {first : Char} {tail : List Char}
    (begins : beginsValue (first :: tail) = true) : isBlank first = false := by
  rw [Bool.eq_false_iff]
  intro blank
  rcases isBlank_eq_true blank with rfl | rfl | rfl | rfl <;> cases begins

/-- A text that begins a value begins with no blank. -/
theorem skipBlanks_of_beginsValue {text : List Char} (begins : beginsValue text = true)
    (rest : List Char) : skipBlanks (text ++ rest) = text ++ rest := by
  cases text with
  | nil => cases begins
  | cons first tail => exact skipBlanks_start List.all_nil (isBlank_of_beginsValue begins) _

namespace Reads

variable {α β : Type} {reader : Reader α} {text : List Char} {value : α}

theorem gives (reads : Reads reader text value) : Gives reader text (.ok value) := reads.run

theorem andThen (reads : Reads reader text value) {next : α → Result β} {result : β}
    (accepted : next value = .ok result) : Reads (reader.andThen next) text result where
  begins := reads.begins
  run := by
    have gives : Gives (reader.andThen next) text (next value) := reads.gives.andThen next
    rw [accepted] at gives
    exact gives

theorem map (reads : Reads reader text value) (change : α → β) :
    Reads (reader.map change) text (change value) :=
  reads.andThen rfl

theorem optional (reads : Reads reader text value) :
    Reads (optional reader) text (some value) where
  begins := reads.begins
  run := by
    have begins := reads.begins
    cases text with
    | nil => cases begins
    | cons first tail =>
        apply reads.gives.optional (isBlank_of_beginsValue begins)
        rintro rfl
        cases begins

/-- A whole text that is nothing but a value. -/
theorem readAll (reads : Reads reader text value) :
    readAll reader (String.ofList text) = .ok value :=
  reads.gives.readAll_ofList

end Reads

/-! ## Numbers and texts -/

/-- The value that the reader gives to the text written for a value; one that has no such text stays
as it is. -/
def reread (value : Binary64) : Binary64 :=
  match Json.readAll binary64 (String.ofList (writeNumber value)) with
  | .ok found => found
  | .error _ => value

theorem NumberLiteral.Spells.beginsNumber {literal : NumberLiteral} {text : List Char}
    (spelled : literal.Spells text) (rest : List Char) : beginsNumber (text ++ rest) = true := by
  cases spelled with
  | parts wellFormed _ =>
      cases literal.negative with
      | true => rfl
      | false =>
          have digits := wellFormed.whole
          cases whole : literal.whole with
          | nil => exact absurd whole digits.nonempty
          | cons first more =>
              have firstDigit := digits.all first (whole ▸ List.mem_cons_self ..)
              simp [Json.beginsNumber, firstDigit]

theorem beginsValue_of_beginsNumber {text : List Char} (begins : beginsNumber text = true) :
    beginsValue text = true := by
  cases text with
  | nil => cases begins
  | cons first tail =>
      simp only [beginsNumber, Bool.or_eq_true, decide_eq_true_eq] at begins
      rcases begins with isMinus | isDigit
      · simp [beginsValue, isMinus]
      · simp [beginsValue, isDigit]

theorem NumberLiteral.Spells.beginsValue {literal : NumberLiteral} {text : List Char}
    (spelled : literal.Spells text) : beginsValue text = true := by
  have begins := spelled.beginsNumber []
  rw [List.append_nil] at begins
  exact beginsValue_of_beginsNumber begins

/-- A number is read where one is expected, however its literal is spelled. -/
theorem gives_number {literal : NumberLiteral} {text : List Char} (spelled : literal.Spells text)
    (expected : Expected) : Gives (number expected) text literal.number := by
  intro blanks rest all ends
  have startEq : skipBlanks (blanks ++ (text ++ rest)) = text ++ rest := by
    rw [skipBlanks_append all, skipBlanks_of_beginsValue spelled.beginsValue]
  simp only [number, startEq, spelled.beginsNumber, if_true, spelled.readNumber ends]

theorem reads_literal {literal : NumberLiteral} {found : Number}
    (wellFormed : literal.WellFormed) (numberEq : literal.number = .ok found)
    (expected : Expected) : Reads (number expected) literal.text found where
  begins := (NumberLiteral.spells_text wellFormed).beginsValue
  run := by
    have gives := gives_number (NumberLiteral.spells_text wellFormed) expected
    rw [numberEq] at gives
    exact gives

/-- The literal of a natural number. -/
def NumberLiteral.ofNat (value : Nat) : NumberLiteral := ⟨false, writeNatural value, none, none⟩

theorem NumberLiteral.text_ofNat (value : Nat) :
    (NumberLiteral.ofNat value).text = writeNatural value := by
  simp [NumberLiteral.ofNat, NumberLiteral.text, fractionText, powerText]

theorem NumberLiteral.wellFormed_ofNat (value : Nat) : (NumberLiteral.ofNat value).WellFormed := by
  refine ⟨isDigits_toDigits value, ?_, by simp [ofNat], by simp [ofNat]⟩
  intro leading
  by_cases isZero : value = 0
  · rw [isZero]
    rfl
  · exact absurd leading (toDigits_head_ne_zero (Nat.pos_of_ne_zero isZero))

/-- A natural number that fits is read back. -/
theorem reads_writeNatural {value : Nat} (fits : value ≤ naturalLimit) :
    Reads count (writeNatural value) (UInt64.ofNat value) := by
  have digits : Nat.ofDigitChars 10 (writeNatural value) 0 = value :=
    Nat.ofDigitChars_ten_toDigits
  have numberEq : (NumberLiteral.ofNat value).number = .ok (.natural value) := by
    have taken := accumulate_eq (digits.trans_le fits)
    rw [digits] at taken
    simp [NumberLiteral.ofNat, NumberLiteral.number, NumberLiteral.whole?, taken]
  rw [← NumberLiteral.text_ofNat]
  exact (reads_literal (NumberLiteral.wellFormed_ofNat value) numberEq .count).andThen rfl

/-- The text of a finite value is read, to a value of the same sign and the rescaled size. -/
theorem reads_writeNumber (negative : Bool) (magnitude : Magnitude) :
    Reads binary64 (writeNumber (.finite negative magnitude))
        (reread (.finite negative magnitude)) ∧
      ∃ size, reread (.finite negative magnitude) = .finite negative size ∧
        rescaled? (magnitude.shortest .toEven) = some (.finite false size) := by
  obtain ⟨literal, found, size, textEq, wellFormed, numberEq, valueEq, rescaledEq⟩ :=
    writeNumber_literal negative magnitude
  have reads : Reads binary64 literal.text found.toBinary64 :=
    (reads_literal wellFormed numberEq .number).map Number.toBinary64
  have rereadEq : reread (.finite negative magnitude) = found.toBinary64 := by
    unfold reread
    rw [textEq, reads.readAll]
  rw [rereadEq, textEq]
  exact ⟨reads, size, valueEq, rescaledEq⟩

/-- A finite value is read back unchanged exactly when its rescaled digits give its size. -/
theorem reread_eq_iff (negative : Bool) (magnitude : Magnitude) :
    reread (.finite negative magnitude) = .finite negative magnitude ↔
      rescaled? (magnitude.shortest .toEven) = some (.finite false magnitude) := by
  obtain ⟨_, size, rereadEq, rescaledEq⟩ := reads_writeNumber negative magnitude
  rw [rereadEq, rescaledEq]
  simp

theorem reads_reread {value : Binary64} (finite : value.isFinite = true) :
    Reads binary64 (writeNumber value) (reread value) ∧ (reread value).isFinite = true := by
  cases value with
  | nan => cases finite
  | infinite negative => cases finite
  | finite negative magnitude =>
      obtain ⟨reads, size, rereadEq, _⟩ := reads_writeNumber negative magnitude
      exact ⟨reads, rereadEq ▸ rfl⟩

/-- The inside of a string as the reader of texts has it. -/
theorem gives_text {inside : List Char} {outcome : Result String} (expected : Expected)
    (given : ∀ rest, readTextFrom [] (inside ++ '"' :: rest) =
      outcome.map fun value => (value, rest)) :
    Gives (text expected) ('"' :: (inside ++ ['"'])) outcome := by
  intro blanks rest all _
  have startEq := skipBlanks_enclosed '"' '"' rfl all inside rest
  simp only [text, startEq, given]

/-- A spelled string is read as its value. -/
theorem IsText.reads {spelling : List Char} {value : String} (spelled : IsText spelling value)
    (expected : Expected) : Reads (text expected) spelling value := by
  obtain ⟨inside, rfl, spelledInside⟩ := spelled
  have given (rest : List Char) : readTextFrom [] (inside ++ '"' :: rest) =
      (Except.ok value : Result String).map fun value => (value, rest) := by
    rw [readTextFrom_spelled [] spelledInside]
    simp [Except.map]
  exact ⟨rfl, gives_text expected given⟩

theorem reads_writeText (expected : Expected) (value : String) :
    Reads (text expected) (writeText value) value :=
  (isText_writeText value).reads expected

end Keypad.Json
