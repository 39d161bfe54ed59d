import Keypad.Number.Display
import Keypad.Proofs.Json.NumberText
import Mathlib.Algebra.Order.Field.Rat
import Mathlib.Data.List.TakeWhile

/-!
Contract: what a text of digits with at most one point is read as.

Owns:
- the number of digits put together;
- the grammar of such texts, and the number that one denotes;
- that these texts are read, as the decimal with their digits, and no others are;
- that the display is read without a sign where a digit stands first.

Does not own: values nearest to decimals, where texts come from.
-/

namespace Keypad

open Json (IsDigits fractionText)

namespace Decimal

theorem digitsValue_append (digits more : List Char) :
    digitsValue (digits ++ more) = Nat.ofDigitChars 10 more (digitsValue digits) :=
  Nat.ofDigitChars_append 0

theorem isDigit_ne_point {character : Char} (isDigit : character.isDigit = true) :
    character ≠ point := by
  rintro rfl
  cases isDigit

theorem takeWhile_point {digits : List Char} (more : List Char)
    (all : ∀ digit ∈ digits, digit.isDigit = true) :
    (digits ++ point :: more).takeWhile Char.isDigit = digits ∧
      (digits ++ point :: more).dropWhile Char.isDigit = point :: more := by
  rw [List.takeWhile_append_of_pos all, List.dropWhile_append_of_pos all]
  exact ⟨List.append_nil digits, rfl⟩

theorem ofPositional?_whole {digits : List Char} (isDigits : IsDigits digits) :
    ofPositional? digits = some ⟨digitsValue digits, 0⟩ := by
  unfold ofPositional?
  rw [List.takeWhile_eq_self_iff.mpr isDigits.all, List.dropWhile_eq_nil_iff.mpr isDigits.all]
  exact if_neg (by simpa using isDigits.nonempty)

/-- One side of the point may have no digits, but not both. -/
theorem ofPositional?_pointed {digits fraction : List Char}
    (all : ∀ digit ∈ digits, digit.isDigit = true)
    (fractionAll : ∀ digit ∈ fraction, digit.isDigit = true) (nonempty : digits ++ fraction ≠ []) :
    ofPositional? (digits ++ point :: fraction) =
      some ⟨digitsValue (digits ++ fraction), -(fraction.length : ℤ)⟩ := by
  unfold ofPositional?
  rw [(takeWhile_point _ all).1, (takeWhile_point _ all).2]
  refine if_pos ⟨rfl, ?_, ?_⟩
  · simpa using fractionAll
  · simpa using nonempty

end Decimal

/-- Digits with at most one point among, before or after them, and at least one digit. -/
structure PositionalForm where
  whole : List Char
  fraction : Option (List Char)
  whole_all : ∀ digit ∈ whole, digit.isDigit = true
  fraction_all : ∀ digit ∈ fraction.getD [], digit.isDigit = true
  nonempty : whole ++ fraction.getD [] ≠ []

namespace PositionalForm

def text (form : PositionalForm) : List Char := form.whole ++ fractionText form.fraction

/-- The digits on both sides of the point. -/
def digits (form : PositionalForm) : List Char := form.whole ++ form.fraction.getD []

/-- The digits as a whole number of the last place. -/
def decimal (form : PositionalForm) : Decimal :=
  ⟨Decimal.digitsValue form.digits, -((form.fraction.getD []).length : ℤ)⟩

/-- The number that the text denotes. -/
def size (form : PositionalForm) : ℚ :=
  Decimal.digitsValue form.digits / 10 ^ (form.fraction.getD []).length

theorem size_eq (form : PositionalForm) :
    form.size = form.decimal.coefficient * 10 ^ form.decimal.exponent := by
  show _ = (Decimal.digitsValue form.digits : ℚ) * 10 ^ (-((form.fraction.getD []).length : ℤ))
  rw [zpow_neg, zpow_natCast, ← div_eq_mul_inv]
  rfl

theorem digit_or_point (form : PositionalForm) :
    ∀ character ∈ form.text, character.isDigit = true ∨ character = Decimal.point := by
  intro character member
  rcases List.mem_append.mp member with inWhole | inFraction
  · exact .inl (form.whole_all character inWhole)
  · have all := form.fraction_all
    cases fractionEq : form.fraction with
    | none =>
        rw [fractionEq] at inFraction
        cases inFraction
    | some fraction =>
        rw [fractionEq] at inFraction all
        rcases List.mem_cons.mp inFraction with isPoint | inDigits
        · exact .inr isPoint
        · exact .inl (all character inDigits)

theorem text_ne_nil (form : PositionalForm) : form.text ≠ [] := by
  have nonempty := form.nonempty
  unfold text
  cases fractionEq : form.fraction with
  | none =>
      rw [fractionEq] at nonempty
      exact nonempty
  | some fraction => simp [fractionText]

/-- The text of a form is read as its decimal. -/
theorem ofPositional?_text (form : PositionalForm) :
    Decimal.ofPositional? form.text = some form.decimal := by
  obtain ⟨whole, fraction, wholeAll, fractionAll, nonempty⟩ := form
  cases fraction with
  | none =>
      have isDigits : IsDigits whole := ⟨by simpa using nonempty, wholeAll⟩
      simpa [text, fractionText, decimal, digits] using Decimal.ofPositional?_whole isDigits
  | some fraction => exact Decimal.ofPositional?_pointed wholeAll fractionAll nonempty

/-- What is read is the text of a form. -/
theorem exists_of_ofPositional? {text : List Char} {decimal : Decimal}
    (read : Decimal.ofPositional? text = some decimal) :
    ∃ form : PositionalForm, text = form.text := by
  have wholeAll : ∀ digit ∈ text.takeWhile Char.isDigit, digit.isDigit = true :=
    fun _ member => List.mem_takeWhile_imp member
  have parts := List.takeWhile_append_dropWhile (p := Char.isDigit) (l := text)
  unfold Decimal.ofPositional? at read
  generalize text.takeWhile Char.isDigit = whole at *
  dsimp only at read
  split at read
  next ends =>
    rw [ends, List.append_nil] at parts
    split_ifs at read with isEmpty
    refine ⟨⟨whole, none, wholeAll, by simp, by simpa using isEmpty⟩, ?_⟩
    rw [← parts]
    exact (List.append_nil whole).symm
  next separator fraction goesOn =>
    rw [goesOn] at parts
    split_ifs at read with taken
    obtain ⟨rfl, fractionAll, nonempty⟩ := taken
    exact ⟨⟨whole, some fraction, wholeAll, by simpa using fractionAll, by simpa using nonempty⟩,
      parts.symm⟩

end PositionalForm

namespace NumberFormat

theorem parse_of_head?_ne {text : List Char} (noMinus : text.head? ≠ some '-') :
    parse (String.ofList text) =
      (Decimal.ofPositional? text).map (Binary64.ofSignedDecimal false) := by
  unfold parse
  rw [String.toList_ofList]
  split
  next unsigned => exact absurd rfl noMinus
  · rfl

/-- Where a digit stands first, there is no minus. -/
theorem parse_digits {digits : List Char} (isDigits : IsDigits digits) (more : List Char) :
    parse (String.ofList (digits ++ more)) =
      (Decimal.ofPositional? (digits ++ more)).map (Binary64.ofSignedDecimal false) := by
  obtain ⟨first, rest, rfl⟩ := List.exists_cons_of_ne_nil isDigits.nonempty
  apply parse_of_head?_ne
  intro isMinus
  cases isMinus
  cases isDigits.all '-' List.mem_cons_self

theorem parse_minus (text : List Char) :
    parse (String.ofList ('-' :: text)) =
      (Decimal.ofPositional? text).map (Binary64.ofSignedDecimal true) := by
  have characters : (String.ofList ('-' :: text)).toList = '-' :: text := String.toList_ofList
  simp only [parse, characters]

end NumberFormat

end Keypad
