import Keypad.Proofs.Json.Skipped

/-!
Contract: what a reader makes of a well-formed value does not depend on where the value stands.

A reader gives a value or a fault, and the text around a value has no part in either: neither blanks
before it nor what stands behind it, as long as that does not continue a number. A reader may take
less than the value only where it refuses it.

Owns:
- what a reader makes of a text alone, and readers that make the same of it anywhere;
- that readers of numbers, texts, options and skipped values are of that kind.

Does not own: arrays, objects.
-/

namespace Keypad.Json

/-! ## Verdicts -/

/-- The value or the fault that a reader gives for a text alone. -/
def verdict {α : Type} (reader : Reader α) (text : List Char) : Result α :=
  (reader.run text).map Prod.fst

/-- A reader makes the same of a well-formed value wherever the value stands. -/
def Steady {α : Type} (reader : Reader α) : Prop :=
  ∀ text : List Char, IsValue text → ∃ outcome, Gives reader text outcome

section Verdicts

variable {α β : Type} {reader : Reader α} {text : List Char} {outcome : Result α}

theorem Gives.verdict_eq (gives : Gives reader text outcome) : verdict reader text = outcome := by
  have run := gives [] [] rfl rfl
  rw [List.nil_append, List.append_nil] at run
  unfold verdict
  rw [run]
  cases outcome <;> rfl

theorem Steady.gives (steady : Steady reader) (isValue : IsValue text) :
    Gives reader text (verdict reader text) := by
  obtain ⟨outcome, gives⟩ := steady _ isValue
  rw [gives.verdict_eq]
  exact gives

theorem Steady.andThen (steady : Steady reader) (next : α → Result β) :
    Steady (reader.andThen next) :=
  fun _ isValue => ⟨_, (steady.gives isValue).andThen next⟩

theorem Steady.map (steady : Steady reader) (change : α → β) : Steady (reader.map change) :=
  steady.andThen _

end Verdicts

/-! ## Strings -/

/-- Going on inside a string gives the same whatever stands behind the closing mark. -/
def SteadyInside (goOn : List Char → Step String) (inside : List Char) : Prop :=
  ∃ outcome : Result String, ∀ rest : List Char,
    goOn (inside ++ '"' :: rest) = outcome.map fun value => (value, rest)

theorem steadyInside_malformed {goOn : List Char → Step String} {inside : List Char}
    (refused : ∀ rest, goOn (inside ++ '"' :: rest) = .error .malformed) :
    SteadyInside goOn inside :=
  ⟨.error .malformed, refused⟩

theorem SteadyInside.congr {goOn later : List Char → Step String} {inside others : List Char}
    (steady : SteadyInside later others)
    (same : ∀ rest, goOn (inside ++ '"' :: rest) = later (others ++ '"' :: rest)) :
    SteadyInside goOn inside := by
  obtain ⟨outcome, given⟩ := steady
  exact ⟨outcome, fun rest => (same rest).trans (given rest)⟩

/-- Goes on inside a string behind a character that was found. -/
def goOnBehind (before : List Char) (found : Step Char) : Step String :=
  found.bind fun step => readTextFrom (step.1 :: before) step.2

theorem readTextFrom_escape (before escape : List Char) :
    readTextFrom before ('\\' :: escape) = goOnBehind before (readEscape escape) := by
  cases found : readEscape escape with
  | ok step => exact readTextFrom_escaped before found
  | error fault =>
      rw [readTextFrom]
      split <;> rename_i again <;> rw [found] at again <;> cases again
      rfl

section Numbered

variable {digits others : List Char} {unit : Nat}

theorem escape_append (digits others rest : List Char) :
    '\\' :: 'u' :: (digits ++ others) ++ '"' :: rest =
      '\\' :: 'u' :: (digits ++ (others ++ '"' :: rest)) := by
  simp

/-- An escape by number where any character may stand: a leading surrogate waits for the second
half, a trailing one is refused, and any other unit is a character by itself. -/
theorem steadyInside_numbered (quad : SpellsUnit digits unit) (before : List Char)
    (behind : ∀ before, SteadyInside (readTextFrom before) others)
    (paired : ∀ leading,
      SteadyInside (fun text => goOnBehind before (readTrailing leading text)) others) :
    SteadyInside (readTextFrom before) ('\\' :: 'u' :: (digits ++ others)) := by
  have numbered (rest : List Char) :
      readTextFrom before ('\\' :: 'u' :: (digits ++ others) ++ '"' :: rest) =
        goOnBehind before (readNumbered (digits ++ (others ++ '"' :: rest))) := by
    rw [escape_append, readTextFrom_escape]
    rfl
  by_cases isTrailing : isTrailingSurrogate unit = true
  · apply steadyInside_malformed
    intro rest
    rw [numbered]
    simp [readNumbered, readHexQuad_spelled quad, isTrailing, goOnBehind, Except.bind]
  by_cases isLeading : isLeadingSurrogate unit = true
  · apply (paired unit).congr
    intro rest
    rw [numbered]
    simp [readNumbered, readHexQuad_spelled quad, isTrailing, isLeading]
  · apply (behind (Char.ofNat unit :: before)).congr
    intro rest
    rw [numbered]
    simp [readNumbered, readHexQuad_spelled quad, isTrailing, isLeading, goOnBehind, Except.bind]

/-- An escape by number behind a leading surrogate: its second half or nothing. -/
theorem steadyInside_trailing (quad : SpellsUnit digits unit) (before : List Char) (leading : Nat)
    (behind : ∀ before, SteadyInside (readTextFrom before) others) :
    SteadyInside (fun text => goOnBehind before (readTrailing leading text))
      ('\\' :: 'u' :: (digits ++ others)) := by
  by_cases isTrailing : isTrailingSurrogate unit = true
  · apply (behind (joinSurrogates leading unit :: before)).congr
    intro rest
    simp only [escape_append, readTrailing_spelled leading quad isTrailing, goOnBehind,
      Except.bind]
  · apply steadyInside_malformed
    intro rest
    simp [readTrailing, readPartner, readHexQuad_spelled quad, isTrailing, goOnBehind, Except.bind]

end Numbered

/-- A string is read to the same value, or refused for the same fault, whatever stands behind it. An
escape for a leading surrogate looks at what follows inside the string only, which the second half
is about. -/
theorem IsInside.steady {inside : List Char} (isInside : IsInside inside) :
    (∀ before, SteadyInside (readTextFrom before) inside) ∧
      ∀ before leading, SteadyInside (fun text => goOnBehind before (readTrailing leading text))
        inside := by
  induction isInside with
  | nil =>
      constructor
      · intro before
        exact ⟨.ok (String.ofList before.reverse), fun rest => by simp [readTextFrom, Except.map]⟩
      · intro before leading
        apply steadyInside_malformed
        intro rest
        cases rest <;> simp [readTrailing, goOnBehind, Except.bind]
  | @plain character others shown notMark notBackslash _ inductionHypothesis =>
      constructor
      · intro before
        apply (inductionHypothesis.1 (character :: before)).congr
        intro rest
        rw [List.cons_append, readTextFrom, if_neg (Nat.not_lt.mpr shown)]
        · exact notMark
        · exact notBackslash
      · intro before leading
        apply steadyInside_malformed
        intro rest
        cases others <;> simp [readTrailing, goOnBehind, Except.bind, notBackslash]
  | @letter letter others stands _ inductionHypothesis =>
      have notNumbered : letter ≠ 'u' := by
        rintro rfl
        cases stands
      obtain ⟨character, stands⟩ := Option.isSome_iff_exists.mp stands
      constructor
      · intro before
        apply (inductionHypothesis.1 (character :: before)).congr
        intro rest
        exact readTextFrom_escaped before (readEscape_letter stands _)
      · intro before leading
        apply steadyInside_malformed
        intro rest
        simp [readTrailing, goOnBehind, Except.bind, notNumbered]
  | @number digits others unit quad _ inductionHypothesis =>
      constructor
      · intro before
        exact steadyInside_numbered quad before inductionHypothesis.1 (inductionHypothesis.2 before)
      · intro before leading
        exact steadyInside_trailing quad before leading inductionHypothesis.1

/-! ## Kinds of values -/

section Kinds

variable {text tail : List Char}

theorem beginsNumber_append (isValue : IsValue text) (rest : List Char) :
    beginsNumber (text ++ rest) = beginsNumber text := by
  obtain ⟨first, tail, rfl, _⟩ := isValue.begins
  rfl

theorem IsValue.isNumber (isValue : IsValue text) (begins : beginsNumber text = true) :
    IsNumber text := by
  cases isValue with
  | number isNumber => exact isNumber
  | string isString =>
      obtain ⟨inside, rfl, _⟩ := isString
      cases begins
  | null => cases begins
  | yes => cases begins
  | no => cases begins
  | array _ _ _ => cases begins
  | object _ _ _ _ => cases begins

theorem IsNumber.first_eq {first : Char} (isNumber : IsNumber (first :: tail)) :
    first = '-' ∨ first.isDigit = true := by
  obtain ⟨_, _, textEq, begins⟩ := isNumber.begins
  cases textEq
  exact begins

theorem IsValue.isString (isValue : IsValue ('"' :: tail)) : IsString ('"' :: tail) := by
  cases isValue with
  | string isString => exact isString
  | number isNumber => simpa using isNumber.first_eq

theorem IsValue.eq_null (isValue : IsValue ('n' :: tail)) : tail = ['u', 'l', 'l'] := by
  cases isValue with
  | null => rfl
  | number isNumber => simpa using isNumber.first_eq
  | string isString =>
      obtain ⟨_, textEq, _⟩ := isString
      cases textEq

/-- A number of another kind is read before it is reported. -/
theorem wrongType_number (expected : Expected) (begins : beginsNumber text = true) :
    (.error (wrongType expected text) : Result Unit) =
      (readNumber text).bind fun step => .error (.misfit (.wrongType step.1.found expected)) := by
  unfold wrongType
  split
  · cases begins
  · cases begins
  · cases begins
  · cases begins
  · cases begins
  · cases begins
  · cases begins
  next first tail _ _ _ _ _ _ =>
    have isFirst : first = '-' ∨ first.isDigit = true := by
      simpa [beginsNumber] using begins
    rw [if_pos isFirst]
    cases readNumber (first :: tail) <;> rfl

/-- The report of a value of another kind depends on that value only. -/
theorem IsValue.exists_wrongType (isValue : IsValue text) (expected : Expected) :
    ∃ fault, ∀ rest, endsNumber rest = true → wrongType expected (text ++ rest) = fault := by
  cases isValue with
  | null => exact ⟨.misfit (.wrongType .null expected), fun _ _ => rfl⟩
  | yes => exact ⟨.misfit (.wrongType (.boolean true) expected), fun _ _ => rfl⟩
  | no => exact ⟨.misfit (.wrongType (.boolean false) expected), fun _ _ => rfl⟩
  | array _ _ _ => exact ⟨.misfit (.wrongType .sequence expected), fun _ _ => rfl⟩
  | object _ _ _ _ => exact ⟨.misfit (.wrongType .map expected), fun _ _ => rfl⟩
  | string isString =>
      obtain ⟨inside, rfl, isInside⟩ := isString
      obtain ⟨outcome, given⟩ := isInside.steady.1 []
      have textEq (rest : List Char) :
          '"' :: (inside ++ ['"']) ++ rest = '"' :: (inside ++ '"' :: rest) := by
        simp
      cases outcome with
      | error fault => exact ⟨fault, fun rest _ => by simp [textEq, wrongType, given, Except.map]⟩
      | ok value =>
          refine ⟨.misfit (.wrongType (.text value) expected), fun rest _ => ?_⟩
          simp [textEq, wrongType, given, Except.map]
  | number isNumber =>
      obtain ⟨literal, spelled⟩ := isNumber
      have reported (rest : List Char) (ends : endsNumber rest = true) :
          (.error (wrongType expected (text ++ rest)) : Result Unit) =
            literal.number.bind fun number =>
              .error (.misfit (.wrongType number.found expected)) := by
        rw [wrongType_number expected (spelled.beginsNumber rest), spelled.readNumber ends]
        cases literal.number <;> rfl
      cases numberEq : literal.number with
      | error fault =>
          rw [numberEq] at reported
          exact ⟨fault, fun rest ends => Except.error.inj (reported rest ends)⟩
      | ok number =>
          rw [numberEq] at reported
          exact ⟨_, fun rest ends => Except.error.inj (reported rest ends)⟩

/-- A value that is reported as one of another kind gets the same report everywhere. -/
theorem IsValue.gives_wrongType {α : Type} {reader : Reader α} {first : Char}
    (isValue : IsValue (first :: tail)) (expected : Expected)
    (reports : ∀ text rest, skipBlanks text = first :: rest →
      reader.run text = .error (wrongType expected (first :: rest))) :
    ∃ outcome, Gives reader (first :: tail) outcome := by
  obtain ⟨fault, reported⟩ := isValue.exists_wrongType expected
  refine ⟨.error fault, fun blanks rest blank ends => ?_⟩
  rw [reports _ _ (isValue.skipBlanks_eq blank rest)]
  exact congrArg Except.error (reported rest ends)

end Kinds

/-! ## Readers of single values -/

theorem steady_number (expected : Expected) : Steady (number expected) := by
  intro text isValue
  by_cases begins : beginsNumber text = true
  · obtain ⟨literal, spelled⟩ := isValue.isNumber begins
    exact ⟨literal.number, gives_number spelled expected⟩
  · obtain ⟨fault, reported⟩ := isValue.exists_wrongType expected
    refine ⟨.error fault, fun blanks rest blank ends => ?_⟩
    have otherwise : ¬beginsNumber (text ++ rest) = true := by
      rwa [beginsNumber_append isValue]
    simp only [number, isValue.skipBlanks_eq blank, if_neg otherwise, reported rest ends]
    rfl

theorem steady_binary64 : Steady binary64 := (steady_number .number).map _

theorem steady_count : Steady count := (steady_number .count).andThen _

theorem steady_text (expected : Expected) : Steady (text expected) := by
  intro spelling isValue
  obtain ⟨first, tail, rfl, _⟩ := isValue.begins
  by_cases isMark : first = '"'
  · subst isMark
    obtain ⟨inside, textEq, isInside⟩ := isValue.isString
    cases textEq
    obtain ⟨outcome, given⟩ := isInside.steady.1 []
    exact ⟨outcome, gives_text expected given⟩
  · apply isValue.gives_wrongType expected
    intro whole rest startEq
    simp [text, startEq, isMark]

theorem Steady.optional {α : Type} {reader : Reader α} (steady : Steady reader) :
    Steady (optional reader) := by
  intro text isValue
  obtain ⟨first, tail, rfl, notBlank, _⟩ := isValue.begins
  by_cases isNull : first = 'n'
  · subst isNull
    have tailEq := isValue.eq_null
    subst tailEq
    refine ⟨.ok none, fun blanks rest blank _ => ?_⟩
    simp only [Json.optional, isValue.skipBlanks_eq blank]
    rfl
  · exact ⟨_, (steady.gives isValue).optional notBlank isNull⟩

/-- A value that nobody reads is taken as it is. -/
theorem gives_skipped {text : List Char} (isValue : IsValue text) :
    Gives skipped text (.ok ()) := by
  intro blanks rest blank ends
  simp only [skipped, isValue.passesOver [] blanks rest blank ends, resume_nil]
  rfl

end Keypad.Json
