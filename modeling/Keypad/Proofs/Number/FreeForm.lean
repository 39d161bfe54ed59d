import Keypad.Number.Numeral
import Keypad.Proofs.Number.CorrectRounding
import Keypad.Proofs.Number.Positional

/-!
Contract: what the free form of a number is read as.

Owns:
- a positional form, and one with a power of ten behind it, as decimals;
- a sign before them;
- that the value read is the one nearest to the number written.

Does not own: which texts the display or a row admits.
-/

namespace Keypad

namespace Decimal

/-- No character of a positional form marks a power of ten. -/
theorem unmarked_text (form : PositionalForm) :
    ∀ character ∈ form.text, (!(character = 'e' || character = 'E' : Bool)) = true := by
  intro character member
  rcases form.digit_or_point character member with isDigit | rfl
  · have isNot : ∀ mark : Char, mark.isDigit = false → character ≠ mark := by
      rintro mark notDigit rfl
      rw [notDigit] at isDigit
      cases isDigit
    simp [isNot 'e' rfl, isNot 'E' rfl]
  · rfl

theorem ofScientific?_text (form : PositionalForm) :
    ofScientific? form.text = some form.decimal := by
  unfold ofScientific?
  dsimp only
  rw [List.dropWhile_eq_nil_iff.mpr (unmarked_text form)]
  exact form.ofPositional?_text

theorem ofScientific?_power (form : PositionalForm) {power : List Char} {shift : Int}
    (read : signedInteger? power = some shift) :
    ofScientific? (form.text ++ 'e' :: power) =
      some ⟨form.decimal.coefficient, form.decimal.exponent + shift⟩ := by
  unfold ofScientific?
  dsimp only
  rw [List.takeWhile_append_of_pos (unmarked_text form),
    List.dropWhile_append_of_pos (unmarked_text form), List.takeWhile_cons_of_neg (by simp),
    List.dropWhile_cons_of_neg (by simp), List.append_nil, form.ofPositional?_text]
  dsimp only
  rw [read]
  rfl

/-- Digits are read as their number, with either sign before them or none. -/
theorem signedInteger?_digits {digits : List Char} (isDigits : Json.IsDigits digits) :
    signedInteger? ('-' :: digits) = some (-(digitsValue digits : ℤ)) ∧
      signedInteger? ('+' :: digits) = some (digitsValue digits : ℤ) ∧
      signedInteger? digits = some (digitsValue digits : ℤ) := by
  have all : digits.all Char.isDigit = true := List.all_eq_true.mpr isDigits.all
  have notMinus : ∀ rest, digits ≠ '-' :: rest := by
    rintro rest rfl
    cases isDigits.all '-' List.mem_cons_self
  have notPlus : ∀ rest, digits ≠ '+' :: rest := by
    rintro rest rfl
    cases isDigits.all '+' List.mem_cons_self
  refine ⟨?_, ?_, ?_⟩
  · simp [signedInteger?, isDigits.nonempty, all]
  · simp [signedInteger?, isDigits.nonempty, all]
  · simp [signedInteger?, isDigits.nonempty, all]

/-- The power of ten of a scientific form is read back, with a plus before it or none. -/
theorem exists_powerText (writesPlus : Bool) (power : Int) :
    ∃ written, NumeralStyle.powerText writesPlus power = 'e' :: written ∧
      signedInteger? written = some power := by
  obtain ⟨minus, plus, unsigned⟩ :=
    signedInteger?_digits (Json.isDigits_toDigits power.natAbs)
  have value : digitsValue (Nat.toDigits 10 power.natAbs) = power.natAbs :=
    Nat.ofDigitChars_ten_toDigits
  rw [value] at minus plus unsigned
  refine ⟨_, rfl, ?_⟩
  split_ifs with downward
  · rw [List.singleton_append, minus, Int.ofNat_natAbs_of_nonpos downward.le, neg_neg]
  · rw [List.singleton_append, plus, Int.natAbs_of_nonneg (not_lt.mp downward)]
  · rw [List.nil_append, unsigned, Int.natAbs_of_nonneg (not_lt.mp downward)]

end Decimal

namespace Binary64

/-- Behind a minus or none, a text that begins with a digit or a point is read as a decimal: it is no
word and has no further sign. -/
theorem ofText?_signed (negative : Bool) {first : Char} {rest : List Char}
    (begins : first.isDigit = true ∨ first = Decimal.point) :
    ofText? ((if negative then ['-'] else []) ++ first :: rest) =
      (Decimal.ofScientific? (first :: rest)).map (ofSignedDecimal negative) := by
  have isNot : ∀ other : Char, other.isDigit = false → other ≠ Decimal.point → first ≠ other := by
    rintro other notDigit notPoint rfl
    rw [notDigit] at begins
    exact begins.elim Bool.false_ne_true notPoint
  have noWord : first :: rest ≠ "inf".toList := by
    intro isWord
    exact isNot 'i' rfl (by decide) (List.cons.inj isWord).1
  cases negative with
  | true => exact if_neg noWord
  | false =>
      have notNumber : first :: rest ≠ "NaN".toList := by
        intro isWord
        exact isNot 'N' rfl (by decide) (List.cons.inj isWord).1
      rw [if_neg Bool.false_ne_true, List.nil_append]
      unfold ofText?
      split
      next unsigned isMinus => exact absurd (List.cons.inj isMinus).1 (isNot '-' rfl (by decide))
      next unsigned isPlus => exact absurd (List.cons.inj isPlus).1 (isNot '+' rfl (by decide))
      · exact (if_neg notNumber).trans (if_neg noWord)

/-- A positional form is read as the value nearest to the number that it denotes. -/
theorem ofText?_form (negative : Bool) (form : PositionalForm) :
    ofText? ((if negative then ['-'] else []) ++ form.text) =
      some (ofSignedDecimal negative form.decimal) := by
  obtain ⟨first, rest, textEq⟩ := List.exists_cons_of_ne_nil form.text_ne_nil
  have begins := form.digit_or_point first (by simp [textEq])
  have read := Decimal.ofScientific?_text form
  rw [textEq] at read ⊢
  rw [ofText?_signed negative begins, read]
  rfl

/-- So is one with a power of ten behind it. -/
theorem ofText?_form_power (negative : Bool) (form : PositionalForm) {power : List Char}
    {shift : Int} (read : Decimal.signedInteger? power = some shift) :
    ofText? ((if negative then ['-'] else []) ++ (form.text ++ 'e' :: power)) =
      some (ofDecimal negative form.decimal.coefficient (form.decimal.exponent + shift)) := by
  obtain ⟨first, rest, textEq⟩ := List.exists_cons_of_ne_nil form.text_ne_nil
  have begins := form.digit_or_point first (by simp [textEq])
  have scientific := Decimal.ofScientific?_power form read
  rw [textEq, List.cons_append] at scientific ⊢
  rw [ofText?_signed negative begins, scientific]
  rfl

theorem isNearest_form (negative : Bool) (form : PositionalForm) :
    IsNearest negative form.size (ofSignedDecimal negative form.decimal) :=
  isNearest_places negative _ _

end Binary64

end Keypad
