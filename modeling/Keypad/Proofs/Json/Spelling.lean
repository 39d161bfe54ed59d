import Keypad.Json.Reader

/-!
Contract: how strings and objects may be spelled in a JSON text.

A character has many spellings: itself, an escape by letter, an escape by number, a pair of
surrogates. What a text says is the relation between its spelling and its value; no reader takes
part in it.

Owns:
- spellings of characters and strings, and of objects whose values have a given spelling;
- whole texts, with blanks around their value;
- that exactly the spelled strings are read, and that written strings are spelled.

Does not own: numbers, arrays, the readers of objects.
-/

namespace Keypad.Json

/-! ## Strings -/

/-- Four hexadecimal digits for a number. -/
inductive SpellsUnit : List Char → Nat → Prop where
  | quad {first second third fourth : Char} {a b c d : Nat}
      (firstDigit : hexValue? first = some a) (secondDigit : hexValue? second = some b)
      (thirdDigit : hexValue? third = some c) (fourthDigit : hexValue? fourth = some d) :
      SpellsUnit [first, second, third, fourth] (((a * 16 + b) * 16 + c) * 16 + d)

/-- A spelling of one character inside a string. -/
inductive SpellsCharacter : List Char → Char → Prop where
  | plain {character : Char} (shown : 0x20 ≤ character.toNat) (notMark : character ≠ '"')
      (notBackslash : character ≠ '\\') : SpellsCharacter [character] character
  | letter {letter character : Char} (stands : ofEscapeLetter? letter = some character) :
      SpellsCharacter ['\\', letter] character
  | number {digits : List Char} {unit : Nat} (quad : SpellsUnit digits unit)
      (notLeading : isLeadingSurrogate unit = false)
      (notTrailing : isTrailingSurrogate unit = false) :
      SpellsCharacter ('\\' :: 'u' :: digits) (Char.ofNat unit)
  | surrogates {leadingDigits trailingDigits : List Char} {leading trailing : Nat}
      (leadingQuad : SpellsUnit leadingDigits leading)
      (isLeading : isLeadingSurrogate leading = true)
      (trailingQuad : SpellsUnit trailingDigits trailing)
      (isTrailing : isTrailingSurrogate trailing = true) :
      SpellsCharacter ('\\' :: 'u' :: (leadingDigits ++ '\\' :: 'u' :: trailingDigits))
        (joinSurrogates leading trailing)

/-- The inside of a string, character by character. -/
inductive Spells : List Char → List Char → Prop where
  | nil : Spells [] []
  | cons {spelling rest characters : List Char} {character : Char}
      (first : SpellsCharacter spelling character) (others : Spells rest characters) :
      Spells (spelling ++ rest) (character :: characters)

/-- A string between its marks. -/
def IsText (spelling : List Char) (value : String) : Prop :=
  ∃ inside, spelling = '"' :: (inside ++ ['"']) ∧ Spells inside value.toList

/-! ## Objects and whole texts -/

/-- What stands before a member: blanks, and before every later one a comma among them. -/
inductive Leads : Bool → List Char → Prop where
  | first {blanks : List Char} (blank : blanks.all isBlank = true) : Leads true blanks
  | later {before after : List Char} (beforeBlank : before.all isBlank = true)
      (afterBlank : after.all isBlank = true) : Leads false (before ++ ',' :: after)

section Objects

variable {α : Type}

/-- The members of an object in the order of the text, up to the closing brace. The flag tells
whether no member stands before them. -/
inductive SpellsMembers (spells : List Char → α → Prop) :
    Bool → List Char → List (String × α) → Prop where
  | nil {first : Bool} {blanks : List Char} (blank : blanks.all isBlank = true) :
      SpellsMembers spells first blanks []
  | cons {first : Bool} {lead key gap room text rest : List Char} {name : String} {value : α}
      {entries : List (String × α)} (leads : Leads first lead) (named : IsText key name)
      (gapBlank : gap.all isBlank = true) (roomBlank : room.all isBlank = true)
      (spelled : spells text value) (others : SpellsMembers spells false rest entries) :
      SpellsMembers spells first (lead ++ (key ++ (gap ++ ':' :: (room ++ (text ++ rest)))))
        ((name, value) :: entries)

/-- An object whose values are spelled in a given way. -/
def IsObject (spells : List Char → α → Prop) (spelling : List Char)
    (entries : List (String × α)) : Prop :=
  ∃ inside, spelling = '\x7b' :: (inside ++ ['\x7d']) ∧ SpellsMembers spells true inside entries

/-- A whole text that is a value with blanks around it. -/
def IsDocument (spells : List Char → α → Prop) (text : String) (value : α) : Prop :=
  ∃ before spelling after, before.all isBlank = true ∧ after.all isBlank = true ∧
    spells spelling value ∧ text.toList = before ++ (spelling ++ after)

end Objects

/-! ## Escapes are read where they are spelled -/

theorem readHexQuad_spelled {digits : List Char} {unit : Nat} (quad : SpellsUnit digits unit)
    (rest : List Char) : readHexQuad (digits ++ rest) = .ok (unit, rest) := by
  cases quad with
  | quad firstDigit secondDigit thirdDigit fourthDigit =>
      simp [readHexQuad, firstDigit, secondDigit, thirdDigit, fourthDigit]

theorem spelled_of_readHexQuad {text rest : List Char} {unit : Nat}
    (read : readHexQuad text = .ok (unit, rest)) :
    ∃ digits, SpellsUnit digits unit ∧ text = digits ++ rest := by
  unfold readHexQuad at read
  split at read
  · split at read
    next firstDigit secondDigit thirdDigit fourthDigit =>
      cases read
      exact ⟨_, .quad firstDigit secondDigit thirdDigit fourthDigit, rfl⟩
    · cases read
  · split at read <;> cases read

theorem readTrailing_spelled (leading : Nat) {digits : List Char} {trailing : Nat}
    (quad : SpellsUnit digits trailing) (isTrailing : isTrailingSurrogate trailing = true)
    (rest : List Char) :
    readTrailing leading ('\\' :: 'u' :: (digits ++ rest)) =
      .ok (joinSurrogates leading trailing, rest) := by
  simp [readTrailing, readPartner, readHexQuad_spelled quad rest, isTrailing]

theorem spelled_of_readTrailing {leading : Nat} {text rest : List Char} {character : Char}
    (read : readTrailing leading text = .ok (character, rest)) :
    ∃ digits trailing, SpellsUnit digits trailing ∧ isTrailingSurrogate trailing = true ∧
      joinSurrogates leading trailing = character ∧ text = '\\' :: 'u' :: (digits ++ rest) := by
  unfold readTrailing at read
  split at read
  · cases read
  · cases read
  · split at read
    next isEscape =>
      obtain ⟨rfl, rfl⟩ := isEscape
      unfold readPartner at read
      split at read
      next trailing _ quadRead =>
        obtain ⟨digits, quad, rfl⟩ := spelled_of_readHexQuad quadRead
        split at read
        next isTrailing =>
          simp only [Except.ok.injEq, Prod.mk.injEq] at read
          obtain ⟨joined, rfl⟩ := read
          exact ⟨digits, trailing, quad, isTrailing, joined, rfl⟩
        · cases read
      · cases read
    · cases read

theorem readEscape_letter {letter character : Char}
    (stands : ofEscapeLetter? letter = some character) (rest : List Char) :
    readEscape (letter :: rest) = .ok (character, rest) := by
  unfold readEscape
  split
  next absent => cases absent
  next numbered =>
    cases numbered
    cases stands
  next same =>
    cases same
    rw [stands]

theorem isTrailingSurrogate_of_isLeadingSurrogate {unit : Nat}
    (isLeading : isLeadingSurrogate unit = true) : isTrailingSurrogate unit = false := by
  simp only [isLeadingSurrogate, isTrailingSurrogate, Bool.and_eq_true, decide_eq_true_eq,
    Bool.and_eq_false_iff, decide_eq_false_iff_not] at isLeading ⊢
  omega

theorem readEscape_spelled {escape : List Char} {character : Char}
    (spelled : SpellsCharacter ('\\' :: escape) character) (rest : List Char) :
    readEscape (escape ++ rest) = .ok (character, rest) := by
  cases spelled with
  | plain _ _ notBackslash => exact absurd rfl notBackslash
  | letter stands => exact readEscape_letter stands rest
  | number quad notLeading notTrailing =>
      simp [readEscape, readNumbered, readHexQuad_spelled quad rest, notLeading, notTrailing]
  | surrogates leadingQuad isLeading trailingQuad isTrailing =>
      simp [readEscape, readNumbered, readHexQuad_spelled leadingQuad, isLeading,
        isTrailingSurrogate_of_isLeadingSurrogate isLeading,
        readTrailing_spelled _ trailingQuad isTrailing]

theorem spelled_of_readEscape {text rest : List Char} {character : Char}
    (read : readEscape text = .ok (character, rest)) :
    ∃ escape, SpellsCharacter ('\\' :: escape) character ∧ text = escape ++ rest := by
  unfold readEscape at read
  split at read
  · cases read
  · unfold readNumbered at read
    split at read
    next quadRead =>
      obtain ⟨digits, quad, rfl⟩ := spelled_of_readHexQuad quadRead
      split at read
      · cases read
      next notTrailing =>
        split at read
        next isLeading =>
          obtain ⟨trailingDigits, trailing, trailingQuad, isTrailing, rfl, rfl⟩ :=
            spelled_of_readTrailing read
          exact ⟨_, .surrogates quad isLeading trailingQuad isTrailing, by simp⟩
        next notLeading =>
          simp only [Except.ok.injEq, Prod.mk.injEq] at read
          obtain ⟨rfl, rfl⟩ := read
          exact ⟨_, .number quad (by simpa using notLeading) (by simpa using notTrailing), rfl⟩
    · cases read
  · split at read
    next stands =>
      cases read
      exact ⟨_, .letter stands, rfl⟩
    · cases read

/-! ## Strings are read where they are spelled -/

theorem readTextFrom_escaped (before : List Char) {escape rest : List Char} {character : Char}
    (read : readEscape escape = .ok (character, rest)) :
    readTextFrom before ('\\' :: escape) = readTextFrom (character :: before) rest := by
  rw [readTextFrom]
  split
  next found =>
    rw [read] at found
    cases found
    rfl
  next found =>
    rw [read] at found
    cases found

/-- One spelled character is read as that character. -/
theorem readTextFrom_spelledCharacter (before : List Char) {spelling : List Char}
    {character : Char} (spelled : SpellsCharacter spelling character) (rest : List Char) :
    readTextFrom before (spelling ++ rest) = readTextFrom (character :: before) rest := by
  -- All spellings but the plain one are escapes, which are read alike.
  have plainOrEscape : (spelling = [character] ∧ 0x20 ≤ character.toNat ∧ character ≠ '"' ∧
      character ≠ '\\') ∨ ∃ escape, spelling = '\\' :: escape := by
    cases spelled with
    | plain shown notMark notBackslash => exact .inl ⟨rfl, shown, notMark, notBackslash⟩
    | letter _ => exact .inr ⟨_, rfl⟩
    | number _ _ _ => exact .inr ⟨_, rfl⟩
    | surrogates _ _ _ _ => exact .inr ⟨_, rfl⟩
  obtain ⟨rfl, shown, notMark, notBackslash⟩ | ⟨escape, rfl⟩ := plainOrEscape
  · rw [List.singleton_append, readTextFrom, if_neg (Nat.not_lt.mpr shown)]
    · exact notMark
    · exact notBackslash
  · exact readTextFrom_escaped before (readEscape_spelled spelled rest)

/-- The inside of a spelled string is read up to the closing mark. -/
theorem readTextFrom_spelled (before : List Char) {inside characters : List Char}
    (spelled : Spells inside characters) (rest : List Char) :
    readTextFrom before (inside ++ '"' :: rest) =
      .ok (String.ofList (before.reverse ++ characters), rest) := by
  induction spelled generalizing before with
  | nil => simp [readTextFrom]
  | cons first others inductionHypothesis =>
      rw [List.append_assoc, readTextFrom_spelledCharacter before first, inductionHypothesis]
      simp

/-- What is read as the inside of a string is spelled. -/
theorem spelled_of_readTextFrom {before text rest : List Char} {value : String}
    (read : readTextFrom before text = .ok (value, rest)) :
    ∃ inside characters, Spells inside characters ∧ text = inside ++ '"' :: rest ∧
      value = String.ofList (before.reverse ++ characters) := by
  fun_induction readTextFrom before text with
  | case1 => cases read
  | case2 before tail =>
      cases read
      exact ⟨[], [], .nil, rfl, by simp⟩
  | case3 before tail character afterEscape escape _ inductionHypothesis =>
      obtain ⟨spelling, spelled, rfl⟩ := spelled_of_readEscape escape
      obtain ⟨inside, characters, others, rfl, rfl⟩ := inductionHypothesis read
      refine ⟨'\\' :: spelling ++ inside, character :: characters, .cons spelled others, ?_, ?_⟩
      · simp
      · simp
  | case4 => cases read
  | case5 => cases read
  | case6 before character tail notMark notBackslash shown inductionHypothesis =>
      obtain ⟨inside, characters, others, rfl, rfl⟩ := inductionHypothesis read
      have plain : SpellsCharacter [character] character :=
        .plain (Nat.not_lt.mp shown) notMark notBackslash
      refine ⟨[character] ++ inside, character :: characters, .cons plain others, rfl, ?_⟩
      simp

/-- A string read behind its opening mark is spelled. -/
theorem isText_of_readTextFrom {text rest : List Char} {value : String}
    (read : readTextFrom [] text = .ok (value, rest)) :
    ∃ spelling, IsText spelling value ∧ '"' :: text = spelling ++ rest := by
  obtain ⟨inside, characters, spelled, rfl, rfl⟩ := spelled_of_readTextFrom read
  refine ⟨'"' :: (inside ++ ['"']), ⟨inside, rfl, ?_⟩, ?_⟩
  · simpa using spelled
  · simp

/-! ## Written strings are spelled -/

theorem hexValue?_hexDigit : ∀ value < 16, hexValue? (hexDigit value) = some value := by decide

theorem spells_writeCharacter (character : Char) :
    SpellsCharacter (writeCharacter character) character := by
  unfold writeCharacter
  split
  · exact .letter rfl
  · exact .letter rfl
  · exact .letter rfl
  · exact .letter rfl
  · exact .letter rfl
  · exact .letter rfl
  · exact .letter rfl
  next notMark notBackslash _ _ _ _ _ =>
    split
    next control =>
      have high := hexValue?_hexDigit (character.toNat / 16) (by omega)
      have low := hexValue?_hexDigit (character.toNat % 16) (by omega)
      have unitEq : ((0 * 16 + 0) * 16 + character.toNat / 16) * 16 + character.toNat % 16 =
          character.toNat := by omega
      have quad : SpellsUnit ['0', '0', hexDigit (character.toNat / 16),
          hexDigit (character.toNat % 16)]
          (((0 * 16 + 0) * 16 + character.toNat / 16) * 16 + character.toNat % 16) :=
        .quad rfl rfl high low
      rw [unitEq] at quad
      have spelled : SpellsCharacter ('\\' :: 'u' :: ['0', '0', hexDigit (character.toNat / 16),
          hexDigit (character.toNat % 16)]) (Char.ofNat character.toNat) := by
        apply SpellsCharacter.number quad
        · simp only [isLeadingSurrogate, Bool.and_eq_false_iff, decide_eq_false_iff_not]
          omega
        · simp only [isTrailingSurrogate, Bool.and_eq_false_iff, decide_eq_false_iff_not]
          omega
      rw [Char.ofNat_toNat] at spelled
      exact spelled
    next shown => exact .plain (Nat.not_lt.mp shown) notMark notBackslash

theorem spells_written (characters : List Char) :
    Spells (characters.flatMap writeCharacter) characters := by
  induction characters with
  | nil => exact .nil
  | cons character characters inductionHypothesis =>
      rw [List.flatMap_cons]
      exact .cons (spells_writeCharacter character) inductionHypothesis

theorem isText_writeText (value : String) : IsText (writeText value) value :=
  ⟨_, rfl, spells_written value.toList⟩

end Keypad.Json
