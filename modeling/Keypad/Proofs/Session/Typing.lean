import Keypad.Proofs.Number.CorrectRounding
import Keypad.Proofs.Number.Positional
import Keypad.Proofs.Session.Run

/-!
Contract: the display of an operand as its keys are typed, and the value that is read from it.

Owns:
- words over digits and the period, the number that a word denotes, and how a word is shown;
- the display that a word types, character by character, and that its value is the one nearest to that
  number;
- what typing a word does to a session, whatever else is typed in between.

Does not own: operators, results.
-/

namespace Keypad

open Decimal NumberFormat

/-- Digits and periods in any order, repeated periods and none among them. -/
structure Word where
  characters : List Char
  typable : ∀ character ∈ characters, character.isDigit = true ∨ character = Decimal.point

namespace Word

/-- The key of a character of a word. -/
def key (character : Char) : Key :=
  if character = Decimal.point then .period else .digit character

def keys (word : Word) : List Key := word.characters.map key

/-- The digits before the first period. -/
def whole (word : Word) : List Char := word.characters.takeWhile Char.isDigit

/-- The digits after the first period, further periods dropped. -/
def fraction (word : Word) : List Char :=
  (word.characters.dropWhile Char.isDigit).filter Char.isDigit

/-- The number that a word denotes; one without digits denotes zero. -/
def size (word : Word) : ℚ :=
  (Decimal.digitsValue (word.whole ++ word.fraction) : ℚ) / 10 ^ word.fraction.length

/-- The value nearest to the number that a word denotes. -/
def value (word : Word) : Binary64 :=
  .ofDecimal false (Decimal.digitsValue (word.whole ++ word.fraction)) (-word.fraction.length)

theorem isNearest_value (word : Word) : Binary64.IsNearest false word.size word.value :=
  Binary64.isNearest_places false _ _

/-- Digits without the zeros before them; a single zero where nothing else is left. -/
def withoutLeadingZeros (digits : List Char) : List Char :=
  match digits.dropWhile (· = '0') with
  | [] => ['0']
  | kept => kept

/-- How a word is shown: the digits before the first period without leading zeros, and the period, if
there is one, with the digits behind it. -/
def shown (word : Word) : List Char :=
  withoutLeadingZeros word.whole ++
    if Decimal.point ∈ word.characters then Decimal.point :: word.fraction else []

/-- A word is digits, or digits and a period with any word behind it. -/
theorem whole_or_pointed (word : Word) :
    (∀ character ∈ word.characters, character.isDigit = true) ∨
      ∃ whole after, word.characters = whole ++ Decimal.point :: after ∧
        ∀ character ∈ whole, character.isDigit = true := by
  have wholeAll : ∀ character ∈ word.characters.takeWhile Char.isDigit, character.isDigit = true :=
    fun _ member => List.mem_takeWhile_imp member
  have parts := List.takeWhile_append_dropWhile (p := Char.isDigit) (l := word.characters)
  have stops := List.head?_dropWhile_not Char.isDigit word.characters
  cases rest : word.characters.dropWhile Char.isDigit with
  | nil => exact .inl (List.dropWhile_eq_nil_iff.mp rest)
  | cons next after =>
      have member : next ∈ word.characters :=
        (List.dropWhile_sublist Char.isDigit).subset (rest ▸ List.mem_cons_self)
      rw [rest] at parts stops
      have isPoint := (word.typable next member).resolve_left (by simpa using stops)
      rw [isPoint] at parts
      exact .inr ⟨_, after, parts.symm, wholeAll⟩

theorem shown_whole {word : Word}
    (all : ∀ character ∈ word.characters, character.isDigit = true) :
    word.shown = withoutLeadingZeros word.characters ∧
      word.whole = word.characters ∧ word.fraction = [] := by
  have noPoint : Decimal.point ∉ word.characters :=
    fun member => isDigit_ne_point (all _ member) rfl
  have wholeEq : word.whole = word.characters := List.takeWhile_eq_self_iff.mpr all
  refine ⟨?_, wholeEq, ?_⟩
  · rw [shown, wholeEq, if_neg noPoint, List.append_nil]
  · rw [fraction, List.dropWhile_eq_nil_iff.mpr all, List.filter_nil]

theorem shown_pointed {word : Word} {digits after : List Char}
    (characters : word.characters = digits ++ Decimal.point :: after)
    (all : ∀ character ∈ digits, character.isDigit = true) :
    word.shown = withoutLeadingZeros digits ++ Decimal.point :: after.filter Char.isDigit ∧
      word.whole = digits ∧ word.fraction = after.filter Char.isDigit := by
  have hasPoint : Decimal.point ∈ word.characters := by simp [characters]
  have wholeEq : word.whole = digits := by rw [whole, characters, (takeWhile_point _ all).1]
  have fractionEq : word.fraction = after.filter Char.isDigit := by
    rw [fraction, characters, (takeWhile_point _ all).2, List.filter_cons_of_neg (by decide)]
  exact ⟨by rw [shown, if_pos hasPoint, wholeEq, fractionEq], wholeEq, fractionEq⟩

section LeadingZeros

variable {digits : List Char}

theorem isDigits_withoutLeadingZeros (all : ∀ digit ∈ digits, digit.isDigit = true) :
    Json.IsDigits (withoutLeadingZeros digits) := by
  unfold withoutLeadingZeros
  split
  · exact Json.isDigits_zero
  next nonempty =>
    refine ⟨nonempty, fun digit member => all digit ?_⟩
    exact (List.dropWhile_sublist _).subset member

theorem digitsValue_withoutLeadingZeros (digits : List Char) :
    digitsValue (withoutLeadingZeros digits) = digitsValue digits := by
  have dropped : digitsValue (digits.dropWhile (· = '0')) = digitsValue digits := by
    induction digits with
    | nil => rfl
    | cons digit digits inductionHypothesis =>
        by_cases isZero : digit = '0'
        · rw [List.dropWhile_cons_of_pos (by simpa using isZero), inductionHypothesis, isZero]
          rfl
        · rw [List.dropWhile_cons_of_neg (by simpa using isZero)]
  unfold withoutLeadingZeros
  split
  next none =>
    rw [← dropped, none]
    rfl
  · exact dropped

/-- A lone zero gives way to the next digit, and all else stays before it. -/
theorem withoutLeadingZeros_append (digits : List Char) (digit : Char) :
    withoutLeadingZeros (digits ++ [digit]) =
      if withoutLeadingZeros digits = ['0'] then [digit]
      else withoutLeadingZeros digits ++ [digit] := by
  have stops := List.head?_dropWhile_not (fun digit : Char => decide (digit = '0')) digits
  unfold withoutLeadingZeros
  rw [List.dropWhile_append]
  cases kept : digits.dropWhile (· = '0') with
  | nil => by_cases isZero : digit = '0' <;> simp [isZero]
  | cons first rest =>
      rw [kept] at stops
      have notZero : first ≠ '0' := by simpa using stops
      simp [notZero]

end LeadingZeros

end Word

namespace Session

/-- The display after one more character of an operand. -/
def typeCharacter (display : String) (character : Char) : String :=
  if display = zeroText then
    if character = Decimal.point then zeroText.push Decimal.point else String.singleton character
  else if character = Decimal.point ∧ display.toList.contains Decimal.point then
    display
  else
    display.push character

/-- The display that characters type. -/
def typedText (characters : List Char) : String := characters.foldl typeCharacter zeroText

/-- A digit replaces a lone zero and extends all else. -/
theorem toList_typeCharacter_digit (display : String) {character : Char}
    (isDigit : character.isDigit = true) :
    (typeCharacter display character).toList =
      if display = zeroText then [character] else display.toList ++ [character] := by
  have notPoint := isDigit_ne_point isDigit
  unfold typeCharacter
  split <;> simp [notPoint]

/-- A period is taken where there is none yet. -/
theorem toList_typeCharacter_point (display : String) :
    (typeCharacter display Decimal.point).toList =
      if Decimal.point ∈ display.toList then display.toList
      else display.toList ++ [Decimal.point] := by
  unfold typeCharacter
  split
  next isZero =>
    subst isZero
    rfl
  · by_cases member : Decimal.point ∈ display.toList <;> simp [member]

/-- Digits are typed without leading zeros. -/
theorem toList_typedText_digits {digits : List Char}
    (all : ∀ digit ∈ digits, digit.isDigit = true) :
    (typedText digits).toList = Word.withoutLeadingZeros digits := by
  induction digits using List.reverseRecOn with
  | nil => rfl
  | append_singleton digits digit inductionHypothesis =>
      rw [List.forall_mem_append, List.forall_mem_singleton] at all
      have isZero : typedText digits = zeroText ↔ Word.withoutLeadingZeros digits = ['0'] := by
        rw [← inductionHypothesis all.1, ← String.toList_inj]
        rfl
      rw [typedText, List.foldl_append, Word.withoutLeadingZeros_append]
      refine (toList_typeCharacter_digit (typedText digits) all.2).trans ?_
      rw [inductionHypothesis all.1]
      simp only [isZero]

/-- Behind a point, digits are taken and points are not. -/
theorem toList_foldl_typeCharacter {display : String} {after : List Char}
    (hasPoint : Decimal.point ∈ display.toList)
    (typable : ∀ character ∈ after, character.isDigit = true ∨ character = Decimal.point) :
    (after.foldl typeCharacter display).toList = display.toList ++ after.filter Char.isDigit := by
  induction after generalizing display with
  | nil => rw [List.foldl_nil, List.filter_nil, List.append_nil]
  | cons character after inductionHypothesis =>
      rw [List.forall_mem_cons] at typable
      rw [List.foldl_cons]
      rcases typable.1 with isDigit | rfl
      · have notZero : display ≠ zeroText := by
          rintro rfl
          exact absurd hasPoint (by decide)
        have longer := toList_typeCharacter_digit display isDigit
        rw [if_neg notZero] at longer
        rw [inductionHypothesis (longer ▸ List.mem_append_left _ hasPoint) typable.2, longer,
          List.filter_cons_of_pos isDigit, List.append_assoc]
        rfl
      · have same := toList_typeCharacter_point display
        rw [if_pos hasPoint] at same
        rw [inductionHypothesis (same ▸ hasPoint) typable.2, same,
          List.filter_cons_of_neg (by decide)]

/-- A word types what it is shown as. -/
theorem toList_typedText (word : Word) : (typedText word.characters).toList = word.shown := by
  rcases word.whole_or_pointed with all | ⟨whole, after, characters, all⟩
  · rw [toList_typedText_digits all, (Word.shown_whole all).1]
  · have noPoint : Decimal.point ∉ (typedText whole).toList := by
      rw [toList_typedText_digits all]
      exact fun member => isDigit_ne_point ((Word.isDigits_withoutLeadingZeros all).all _ member) rfl
    have typable := word.typable
    rw [characters, List.forall_mem_append, List.forall_mem_cons] at typable
    have pointed : (typeCharacter (typedText whole) Decimal.point).toList =
        Word.withoutLeadingZeros whole ++ [Decimal.point] := by
      rw [toList_typeCharacter_point, if_neg noPoint, toList_typedText_digits all]
    rw [(Word.shown_pointed characters all).1, characters, typedText, List.foldl_append,
      List.foldl_cons]
    refine (toList_foldl_typeCharacter ?_ typable.2.2).trans ?_
    · exact pointed ▸ List.mem_append_right _ List.mem_cons_self
    · rw [show (typeCharacter (whole.foldl typeCharacter zeroText) Decimal.point).toList = _ from
        pointed, List.append_assoc]
      rfl

/-- What a word types is read as the value nearest to the number that the word denotes. -/
theorem parse_typedText (word : Word) :
    NumberFormat.parse (typedText word.characters) = some word.value := by
  rw [← String.ofList_toList (s := typedText word.characters), toList_typedText, Word.value]
  rcases word.whole_or_pointed with all | ⟨whole, after, characters, all⟩
  · obtain ⟨shown, wholeEq, fractionEq⟩ := Word.shown_whole all
    have isDigits := Word.isDigits_withoutLeadingZeros all
    rw [shown, wholeEq, fractionEq, ← List.append_nil (Word.withoutLeadingZeros _),
      parse_digits isDigits, List.append_nil, List.append_nil, ofPositional?_whole isDigits,
      Word.digitsValue_withoutLeadingZeros]
    rfl
  · obtain ⟨shown, wholeEq, fractionEq⟩ := Word.shown_pointed characters all
    have isDigits := Word.isDigits_withoutLeadingZeros all
    have fractionAll : ∀ digit ∈ after.filter Char.isDigit, digit.isDigit = true :=
      fun digit member => (List.mem_filter.mp member).2
    rw [shown, wholeEq, fractionEq, parse_digits isDigits,
      ofPositional?_pointed isDigits.all fractionAll (by simp [isDigits.nonempty]),
      digitsValue_append, Word.digitsValue_withoutLeadingZeros, ← digitsValue_append]
    rfl

/-! ## Sessions -/

variable {σ : Type}

/-- The text that the next digit or period goes on from: the operand under construction, or the zero
that stands for one not yet begun. -/
def operandText (session : Session σ) : String :=
  if session.state = .awaitingOperator then session.display else zeroText

theorem isStarting_eq (session : Session σ) :
    session.isStarting = decide (session.operandText = zeroText) := by
  unfold isStarting operandText
  by_cases continues : session.state = .awaitingOperator <;> simp [continues]

/-- A digit or period that is not ignored. -/
theorem pressDigitOrPeriod_typable {session : Session σ} (notError : session.state ≠ .error)
    {character : Char} (typable : character.isDigit = true ∨ character = Decimal.point) :
    session.pressDigitOrPeriod character =
      session.showOperand (typeCharacter session.operandText character) := by
  have sameText : session.operandText ≠ zeroText →
      session.state = .awaitingOperator ∧ session.display = session.operandText := by
    intro begun
    unfold operandText at begun ⊢
    split
    next continues => exact ⟨continues, rfl⟩
    next other => exact absurd (if_neg other) begun
  unfold pressDigitOrPeriod typeCharacter
  rw [if_neg notError, isStarting_eq]
  by_cases isZero : session.operandText = zeroText
  · rcases typable with isDigit | rfl
    · simp [isDigit, isZero, isDigit_ne_point isDigit]
    · simp [isZero, show Decimal.point.isDigit = false from rfl]
  · obtain ⟨continues, displayed⟩ := sameText isZero
    rw [← displayed] at isZero ⊢
    rcases typable with isDigit | rfl
    · simp [isDigit, isZero, isDigit_ne_point isDigit]
    · by_cases hasPoint : Decimal.point ∈ session.display.toList
      · simp [isZero, hasPoint, show Decimal.point.isDigit = false from rfl, showOperand,
          ← continues]
      · simp [isZero, hasPoint, show Decimal.point.isDigit = false from rfl]

/-- All that a digit or period does. -/
theorem pressDigitOrPeriod_eq (session : Session σ) (character : Char) :
    session.pressDigitOrPeriod character =
      if session.state ≠ .error ∧ (character.isDigit = true ∨ character = Decimal.point) then
        session.showOperand (typeCharacter session.operandText character)
      else
        session := by
  split
  next taken => exact pressDigitOrPeriod_typable taken.1 taken.2
  next ignored =>
    unfold pressDigitOrPeriod
    by_cases isError : session.state = .error
    · rw [if_pos isError]
    · obtain ⟨notDigit, notPoint⟩ := not_or.mp (not_and.mp ignored isError)
      rw [if_neg isError, if_neg notDigit, if_neg notPoint]

/-- A session whose next digit or period is taken into the operand that it shows. -/
structure TakesOperand (session : Session σ) : Prop where
  notError : session.state ≠ .error
  begun : session.state = .awaitingOperator ∨ session.display = zeroText

theorem TakesOperand.operandText_eq {session : Session σ} (takes : session.TakesOperand) :
    session.operandText = session.display := by
  unfold operandText
  split
  · rfl
  next other => exact (takes.begun.resolve_left other).symm

/-- A session after the characters of a word: nothing but the display and the state of input has
changed, and nothing at all when there are none. -/
def afterWord (session : Session σ) (characters : List Char) : Session σ :=
  if characters.isEmpty then session
  else session.showOperand (characters.foldl typeCharacter session.display)

/-- Whether a character is taken into an operand. -/
def isTypable (character : Char) : Bool := character.isDigit || character = Decimal.point

theorem isTypable_iff (character : Char) :
    isTypable character = true ↔ character.isDigit = true ∨ character = Decimal.point := by
  simp [isTypable]

theorem filter_isTypable (word : Word) : word.characters.filter isTypable = word.characters :=
  List.filter_eq_self.mpr fun character member =>
    (isTypable_iff character).mpr (word.typable character member)

/-- Digits and periods are taken one after the other into the operand that the session goes on from.
All other characters are ignored, wherever they stand. -/
theorem foldl_pressDigitOrPeriod {session : Session σ} (notError : session.state ≠ .error)
    (typed : List Char) :
    typed.foldl pressDigitOrPeriod session =
      if typed.filter isTypable = [] then session
      else session.showOperand
        ((typed.filter isTypable).foldl typeCharacter session.operandText) := by
  induction typed generalizing session with
  | nil => rfl
  | cons character typed inductionHypothesis =>
      rw [List.foldl_cons, pressDigitOrPeriod_eq]
      by_cases typable : isTypable character = true
      · rw [if_pos ⟨notError, (isTypable_iff character).mp typable⟩,
          inductionHypothesis (show _ ≠ InputState.error by simp [showOperand]),
          List.filter_cons_of_pos typable, if_neg (List.cons_ne_nil _ _), List.foldl_cons]
        split
        next none =>
          rw [none]
          rfl
        · rfl
      · rw [if_neg (fun taken => typable ((isTypable_iff character).mpr taken.2)),
          inductionHypothesis notError, List.filter_cons_of_neg typable]

variable [KeyValueStore σ]

/-- The keys of a word do what its characters do. -/
theorem pressAll_keys (session : Session σ) (word : Word) :
    ∃ turns, session.pressAll word.keys =
      .ok (turns, word.characters.foldl pressDigitOrPeriod session) := by
  unfold Word.keys
  induction word.characters generalizing session with
  | nil => exact ⟨[], rfl⟩
  | cons character characters inductionHypothesis =>
      have pressed : session.press (Word.key character) =
          .ok (.ok none, session.pressDigitOrPeriod character) := by
        unfold Word.key
        split
        next isPoint =>
          rw [isPoint]
          rfl
        · rfl
      obtain ⟨turns, ran⟩ := inductionHypothesis (session.pressDigitOrPeriod character)
      exact ⟨_, pressAll_cons pressed ran⟩

/-- Typing a word. -/
theorem pressAll_word {session : Session σ} (takes : session.TakesOperand) (word : Word) :
    ∃ turns, session.pressAll word.keys = .ok (turns, session.afterWord word.characters) := by
  obtain ⟨turns, ran⟩ := pressAll_keys session word
  refine ⟨turns, ran.trans ?_⟩
  rw [foldl_pressDigitOrPeriod takes.notError, filter_isTypable, takes.operandText_eq, afterWord]
  simp only [List.isEmpty_iff]

/-- Typing a word that is not empty, in a session that neither shows an error nor has an operand under
construction, whatever it shows: the word is then the operand, shown without leading zeros and without
further periods, and nothing else has changed. Other characters that are typed in between change
nothing. -/
theorem typed_operand {session : Session σ} (notError : session.state ≠ .error)
    (notBegun : session.state ≠ .awaitingOperator) (word : Word) (nonempty : word.characters ≠ []) :
    ∃ turns final, session.pressAll word.keys = .ok (turns, final) ∧
      final.state = .awaitingOperator ∧ final.display.toList = word.shown ∧
      final.expression = session.expression ∧ final.history = session.history ∧
      final.store = session.store ∧
      ∀ typed : List Char, typed.filter isTypable = word.characters →
        typed.foldl pressDigitOrPeriod session = final := by
  have begins : session.operandText = zeroText := if_neg notBegun
  have folded : ∀ typed : List Char, typed.filter isTypable = word.characters →
      typed.foldl pressDigitOrPeriod session =
        session.showOperand (typedText word.characters) := by
    intro typed kept
    rw [foldl_pressDigitOrPeriod notError, kept, if_neg nonempty, begins]
    rfl
  obtain ⟨turns, ran⟩ := pressAll_keys session word
  rw [folded word.characters (filter_isTypable word)] at ran
  exact ⟨turns, _, ran, rfl, toList_typedText word, rfl, rfl, rfl, folded⟩

/-- The word `00.5.0` over a result that is infinite, with two other characters in between. -/
theorem typed_operand_infinite :
    ∃ session : Session MemoryStore, session.display = "inf" ∧ session.state ≠ .error ∧
      session.state ≠ .awaitingOperator ∧
      ∃ turns final,
        session.pressAll [.digit '0', .digit '0', .period, .digit '5', .period, .digit '0'] =
          .ok (turns, final) ∧
        final.state = .awaitingOperator ∧ final.display = "0.50" ∧
        ['0', 'x', '0', '.', '=', '5', '.', '0'].foldl pressDigitOrPeriod session = final := by
  let session := (start (σ := MemoryStore) ⟨.empty⟩ .standard).showResult "inf"
  have notError : session.state ≠ .error := by simp [session, showResult]
  have notBegun : session.state ≠ .awaitingOperator := by simp [session, showResult]
  obtain ⟨turns, final, ran, state, display, _, _, _, ignores⟩ :=
    typed_operand notError notBegun ⟨['0', '0', '.', '5', '.', '0'], by simp [Decimal.point]⟩
      (List.cons_ne_nil _ _)
  refine ⟨session, rfl, notError, notBegun, turns, final, ran, state, ?_, ignores _ (by decide)⟩
  rw [← String.toList_inj, display]
  decide

end Session

end Keypad
