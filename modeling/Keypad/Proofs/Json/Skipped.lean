import Keypad.Json.Skip
import Keypad.Proofs.Json.Parts

/-!
Contract: a value that nobody reads is passed over whole, and nothing behind it.

The brackets around a value are no part of it: whatever is open when it begins is open again when it
ends, as deep as it may nest inside.

Owns:
- strings, numbers and literals that are passed over;
- that a well-formed value inside any open brackets is passed over up to what stands behind it.

Does not own: texts that are not well formed.
-/

namespace Keypad.Json

/-! ## Values without brackets -/

theorem skipText_escaped {escape rest : List Char} (skipped : skipEscape escape = .ok rest) :
    skipText ('\\' :: escape) = skipText rest := by
  rw [skipText]
  split <;> rename_i found <;> rw [skipped] at found <;> cases found
  rfl

theorem skipEscape_letter {letter : Char} (stands : (ofEscapeLetter? letter).isSome = true)
    (rest : List Char) : skipEscape (letter :: rest) = .ok rest := by
  unfold skipEscape
  split
  next absent => cases absent
  next numbered =>
    cases numbered
    cases stands
  next same =>
    cases same
    rw [if_pos stands]

/-- The inside of a string is passed over up to its closing mark. -/
theorem skipText_inside {inside : List Char} (isInside : IsInside inside) (rest : List Char) :
    skipText (inside ++ '"' :: rest) = .ok rest := by
  induction isInside with
  | nil => simp [skipText]
  | plain shown notMark notBackslash _ inductionHypothesis =>
      rw [List.cons_append, skipText, if_neg (Nat.not_lt.mpr shown)]
      · exact inductionHypothesis
      · exact notMark
      · exact notBackslash
  | @letter letter others stands _ inductionHypothesis =>
      rw [List.cons_append, List.cons_append, skipText_escaped (skipEscape_letter stands _)]
      exact inductionHypothesis
  | @number digits others unit quad _ inductionHypothesis =>
      have skipped : skipEscape ('u' :: (digits ++ (others ++ '"' :: rest))) =
          .ok (others ++ '"' :: rest) := by
        simp [skipEscape, readHexQuad_spelled quad]
      have unfolded : '\\' :: 'u' :: (digits ++ others) ++ '"' :: rest =
          '\\' :: 'u' :: (digits ++ (others ++ '"' :: rest)) := by
        simp
      rw [unfolded, skipText_escaped skipped]
      exact inductionHypothesis

theorem skipScalar_number {text rest : List Char} (isNumber : IsNumber text)
    (ends : endsNumber rest = true) : skipScalar (text ++ rest) = .ok rest := by
  have skipped : skipNumber (text ++ rest) = .ok rest := by
    obtain ⟨literal, spelled⟩ := isNumber
    unfold skipNumber
    rw [spelled.readLiteral ends]
  obtain ⟨first, tail, rfl, begins⟩ := isNumber.begins
  rw [List.cons_append] at skipped ⊢
  unfold skipScalar
  split
  next isNil => cases isNil
  next isNull =>
    cases isNull
    simp at begins
  next isTrue =>
    cases isTrue
    simp at begins
  next isFalse =>
    cases isFalse
    simp at begins
  next isString =>
    cases isString
    simp at begins
  next isFirst =>
    cases isFirst
    rw [if_pos begins]
    exact skipped

/-! ## Open brackets -/

/-- What passing over does after one step. -/
def proceed (step : Option (List Bracket) × List Char) : Result (List Char) :=
  step.1.elim (.ok step.2) fun brackets => skipFrom brackets step.2

/-- Passes over what follows a value inside the given brackets, up to the end of the outermost. -/
def resume (brackets : List Bracket) (text : List Char) : Result (List Char) :=
  (skipClosing brackets text).bind proceed

theorem skipFrom_eq (brackets : List Bracket) (text : List Char) :
    skipFrom brackets text = (skipStep brackets text).bind proceed := by
  rw [skipFrom]
  split
  next found =>
    rw [found]
    rfl
  next found =>
    rw [found]
    rfl
  next remaining rest found =>
    show skipFrom remaining rest = _
    rw [found]
    rfl

theorem resume_nil (text : List Char) : resume [] text = .ok text := rfl

/-- A closed bracket is done with. -/
theorem resume_closing {bracket : Bracket} {brackets : List Bracket} {gap : List Char}
    (blank : gap.all isBlank = true) (rest : List Char) :
    resume (bracket :: brackets) (gap ++ bracket.closing :: rest) = resume brackets rest := by
  have startEq : skipBlanks (gap ++ bracket.closing :: rest) = bracket.closing :: rest := by
    rw [skipBlanks_append blank]
    cases bracket <;> rfl
  have notComma : bracket.closing ≠ ',' := by
    cases bracket <;> decide
  unfold resume
  rw [skipClosing, startEq]
  simp [notComma]

/-- A comma leads to the next value in the same brackets, behind its key if there is one. -/
theorem resume_comma {bracket : Bracket} {brackets : List Bracket} {gap text rest : List Char}
    (blank : gap.all isBlank = true) (key : skipKey bracket text = .ok rest) :
    resume (bracket :: brackets) (gap ++ ',' :: text) = skipFrom (bracket :: brackets) rest := by
  have startEq : skipBlanks (gap ++ ',' :: text) = ',' :: text := skipBlanks_append blank
  unfold resume
  rw [skipClosing, startEq]
  simp [key, Except.bind, proceed]

/-- A value is passed over, whatever is open around it and whatever behind it does not continue
it. -/
def PassesOver (text : List Char) : Prop :=
  ∀ (brackets : List Bracket) (blanks rest : List Char), blanks.all isBlank = true →
    endsNumber rest = true → skipFrom brackets (blanks ++ (text ++ rest)) = resume brackets rest

theorem passesOver_scalar {text : List Char} (begins : ∃ first tail, text = first :: tail ∧
      isBlank first = false ∧ Bracket.ofOpening? first = none)
    (scalar : ∀ rest, endsNumber rest = true → skipScalar (text ++ rest) = .ok rest) :
    PassesOver text := by
  intro brackets blanks rest blank ends
  have skipped := scalar rest ends
  obtain ⟨first, tail, rfl, notBlank, notOpening⟩ := begins
  have startEq : skipBlanks (blanks ++ (first :: tail ++ rest)) = first :: (tail ++ rest) :=
    skipBlanks_start blank notBlank _
  rw [List.cons_append] at skipped
  rw [skipFrom_eq, skipStep, startEq]
  simp only [notOpening, skipped]
  rfl

/-! ## Arrays and objects -/

/-- A part of an array or of an object: passing over its key, if it has one, leads to its value. -/
structure PassesIn (bracket : Bracket) (text : List Char) : Prop where
  begins : ∃ first tail, text = first :: tail ∧ isBlank first = false ∧ first ≠ bracket.closing
  value : ∀ (brackets : List Bracket) (blanks rest : List Char), blanks.all isBlank = true →
    endsNumber rest = true → ∃ value, skipKey bracket (blanks ++ (text ++ rest)) = .ok value ∧
      skipFrom brackets value = resume brackets rest

section Parts

variable {ε : Type} {bracket : Bracket} {brackets : List Bracket} {inside : List Char}
  {entries : List ε}

theorem endsNumber_closing (bracket : Bracket) (rest : List Char) :
    endsNumber (bracket.closing :: rest) = true := by
  cases bracket <;> rfl

/-- The parts behind a value are passed over up to the end of their bracket. -/
theorem resume_holds
    (holds : Holds (fun text (_ : ε) => PassesIn bracket text) false inside entries)
    (brackets : List Bracket) (rest : List Char) :
    resume (bracket :: brackets) (inside ++ bracket.closing :: rest) = resume brackets rest := by
  generalize isLater : false = first at holds
  induction holds with
  | nil blank => exact resume_closing blank rest
  | @cons _ lead text others _ _ leads part holds inductionHypothesis =>
      cases leads with
      | first _ => cases isLater
      | @later before after beforeBlank afterBlank =>
          have ends := endsNumber_holds holds (endsNumber_closing bracket) rest
          obtain ⟨value, key, passed⟩ := part.value (bracket :: brackets) after _ afterBlank ends
          have unfolded :
              before ++ ',' :: after ++ (text ++ others) ++ bracket.closing :: rest =
                before ++ ',' :: (after ++ (text ++ (others ++ bracket.closing :: rest))) := by
            simp
          rw [unfolded, resume_comma beforeBlank key, passed]
          exact inductionHypothesis rfl

/-- Parts between their brackets are passed over whole. -/
theorem passesOver_holds (opening : Char) (opens : Bracket.ofOpening? opening = some bracket)
    (notBlank : isBlank opening = false)
    (holds : Holds (fun text (_ : ε) => PassesIn bracket text) true inside entries) :
    PassesOver (opening :: (inside ++ [bracket.closing])) := by
  intro brackets gap rest gapBlank _
  have startEq := skipBlanks_enclosed opening bracket.closing notBlank gapBlank inside rest
  rw [skipFrom_eq, skipStep, startEq]
  cases holds with
  | nil blank =>
      have closingEq : skipBlanks (inside ++ bracket.closing :: rest) =
          bracket.closing :: rest := by
        apply skipBlanks_start blank
        cases bracket <;> rfl
      simp only [opens, closingEq, if_true]
      rfl
  | @cons _ lead text others _ _ leads part holds =>
      cases leads with
      | first leadBlank =>
          have ends := endsNumber_holds holds (endsNumber_closing bracket) rest
          obtain ⟨value, key, passed⟩ := part.value (bracket :: brackets) lead _ leadBlank ends
          obtain ⟨first, tail, textEq, firstNotBlank, notClosing⟩ := part.begins
          have unfolded : lead ++ (text ++ others) ++ bracket.closing :: rest =
              lead ++ (text ++ (others ++ bracket.closing :: rest)) := by
            simp
          have firstEq : skipBlanks (lead ++ (text ++ (others ++ bracket.closing :: rest))) =
              first :: (tail ++ (others ++ bracket.closing :: rest)) := by
            rw [textEq]
            exact skipBlanks_start leadBlank firstNotBlank _
          rw [unfolded]
          simp only [opens, firstEq, if_neg notClosing, key]
          show skipFrom (bracket :: brackets) value = _
          rw [passed]
          exact resume_holds holds brackets rest

end Parts

/-- An element of an array. -/
theorem passesIn_element {text : List Char} (isValue : IsValue text) (passes : PassesOver text) :
    PassesIn .array text where
  begins := isValue.begins
  value := fun brackets blanks rest blank ends => ⟨_, rfl, passes brackets blanks rest blank ends⟩

/-- A member of an object: a key, a colon and a value. -/
theorem passesIn_member {key gap room value : List Char} (isKey : IsString key)
    (gapBlank : gap.all isBlank = true) (roomBlank : room.all isBlank = true)
    (passes : PassesOver value) : PassesIn .object (key ++ (gap ++ ':' :: (room ++ value))) where
  begins := by
    obtain ⟨inside, rfl, _⟩ := isKey
    exact ⟨_, _, rfl, rfl, by decide⟩
  value := by
    intro brackets blanks rest blank ends
    obtain ⟨inside, rfl, isInside⟩ := isKey
    refine ⟨room ++ (value ++ rest), ?_, passes brackets room rest roomBlank ends⟩
    have startEq : skipBlanks (blanks ++
        ('"' :: (inside ++ ['"']) ++ (gap ++ ':' :: (room ++ value)) ++ rest)) =
        '"' :: (inside ++ '"' :: (gap ++ ':' :: (room ++ (value ++ rest)))) := by
      rw [List.append_assoc, skipBlanks_enclosed '"' '"' rfl blank]
      simp
    unfold skipKey
    simp only [startEq, skipText_inside isInside, readColon_blanks gapBlank]

/-- Every well-formed value is passed over whole, as deep as it nests. -/
theorem IsValue.passesOver {text : List Char} (isValue : IsValue text) : PassesOver text := by
  induction isValue with
  | null => exact passesOver_scalar ⟨_, _, rfl, rfl, rfl⟩ fun _ _ => rfl
  | yes => exact passesOver_scalar ⟨_, _, rfl, rfl, rfl⟩ fun _ _ => rfl
  | no => exact passesOver_scalar ⟨_, _, rfl, rfl, rfl⟩ fun _ _ => rfl
  | number isNumber =>
      refine passesOver_scalar ?_ fun rest ends => skipScalar_number isNumber ends
      obtain ⟨first, tail, rfl, begins⟩ := isNumber.begins
      refine ⟨first, tail, rfl, isBlank_eq_false begins, ?_⟩
      unfold Bracket.ofOpening?
      split
      · simp at begins
      · simp at begins
      · rfl
  | string isString =>
      obtain ⟨inside, rfl, isInside⟩ := isString
      refine passesOver_scalar ⟨_, _, rfl, rfl, rfl⟩ fun rest _ => ?_
      have skipped := skipText_inside isInside rest
      simpa [skipScalar] using skipped
  | array blank spaced values inductionHypothesis =>
      have holds : Holds (fun text (_ : Unit) => PassesIn .array text) true _ _ :=
        holds_intercalate id (fun _ => ()) spaced (fun element isElement =>
          passesIn_element (values element isElement) (inductionHypothesis element isElement)) blank
      have passes := passesOver_holds '[' rfl rfl holds
      rw [List.append_assoc] at passes
      exact passes
  | object blank spaced keys values inductionHypothesis =>
      have holds : Holds (fun text (_ : Unit) => PassesIn .object text) true _ _ :=
        holds_intercalate MemberText.padded (fun _ => ())
        (fun member isMember =>
          ⟨(spaced member isMember).1.before, (spaced member isMember).2.after⟩)
        (fun member isMember => passesIn_member (keys member isMember)
          (spaced member isMember).1.after (spaced member isMember).2.before
          (inductionHypothesis member isMember)) blank
      have passes := passesOver_holds '\x7b' rfl rfl holds
      simp only [MemberText.padded_text] at passes
      rw [List.append_assoc] at passes
      exact passes

end Keypad.Json
