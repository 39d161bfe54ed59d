import Mathlib.Algebra.Group.Int.Even
import Keypad.Proofs.Number.Arithmetic
import Keypad.Proofs.Number.Display

/-!
Contract: the display shows a finite value as the one numeral that denotes the value rounded to the
allowed places.

Owns:
- numerals without idle zeros, their texts and the numbers that they denote;
- that a rounded whole number is nearest among all whole numbers;
- that the display writes such a numeral, nearest among the multiples of the last place.

Does not own: reading the display, values that are not finite.
-/

namespace Keypad

open Json (IsDigits)

/-- A whole number is nearest to what it was rounded from; it is even where another is as near. -/
theorem RoundsTo.nearest {exact : ℚ} {count : Nat} (rounds : RoundsTo exact count) (other : ℤ) :
    |exact - count| ≤ |exact - other| ∧
      (|exact - count| = |exact - other| → other ≠ count → count % 2 = 0) := by
  by_cases same : other = count
  · refine ⟨?_, fun _ different => absurd same different⟩
    rw [same, Int.cast_natCast]
  · have apart : (1 : ℚ) ≤ |(count : ℚ) - other| := by
      have integerApart : (1 : ℤ) ≤ |(count : ℤ) - other| := Int.one_le_abs (by omega)
      exact_mod_cast integerApart
    have near := rounds.near
    have triangle := abs_sub_le (count : ℚ) exact other
    rw [abs_sub_comm (count : ℚ) exact] at triangle
    exact ⟨by linarith, fun tie _ => rounds.even (by linarith)⟩

/-- A number as the display writes it: no zero before other digits of the whole part, and none at
the end of the fraction. -/
structure DisplayNumeral where
  negative : Bool
  whole : List Char
  fraction : List Char
  whole_isDigits : IsDigits whole
  whole_leading : whole.head? = some '0' → whole = ['0']
  fraction_isDigits : ∀ digit ∈ fraction, digit.isDigit = true
  fraction_last : fraction.getLast? ≠ some '0'

namespace DisplayNumeral

/-- A minus if there is one, the whole part, and a point and the fraction if there is one. -/
def text (numeral : DisplayNumeral) : List Char :=
  (if numeral.negative then ['-'] else []) ++
    (numeral.whole ++
      if numeral.fraction.isEmpty then [] else Decimal.point :: numeral.fraction)

/-- The number that the text denotes. -/
def value (numeral : DisplayNumeral) : ℚ :=
  (if numeral.negative then -1 else 1) *
    (Decimal.digitsValue (numeral.whole ++ numeral.fraction) / 10 ^ numeral.fraction.length)

theorem of_text_eq_minus_zero {numeral : DisplayNumeral} (textEq : numeral.text = ['-', '0']) :
    numeral.negative = true ∧ numeral.value = 0 := by
  obtain ⟨negative, whole, fraction, isDigits, _, _, _⟩ := numeral
  obtain ⟨first, rest, rfl⟩ := List.exists_cons_of_ne_nil isDigits.nonempty
  unfold text at textEq
  cases negative with
  | false =>
      have isDigit := isDigits.all first List.mem_cons_self
      simp only [Bool.false_eq_true, if_false, List.nil_append, List.cons_append,
        List.cons.injEq] at textEq
      rw [textEq.1] at isDigit
      cases isDigit
  | true =>
      simp only [if_true, List.cons_append, List.nil_append, List.cons.injEq, true_and,
        List.append_eq_nil_iff] at textEq
      obtain ⟨rfl, rfl, noFraction⟩ := textEq
      have isEmpty : fraction = [] := by
        by_contra nonempty
        rw [if_neg (by simpa using nonempty)] at noFraction
        cases noFraction
      subst isEmpty
      refine ⟨rfl, ?_⟩
      have zero : Decimal.digitsValue ['0'] = 0 := by decide
      simp [value, zero]

end DisplayNumeral

namespace NumberFormat

/-- A whole number of `10 ^ (-places)` is shown as a numeral that denotes it. -/
theorem exists_numeral (negative : Bool) (places count : Nat) :
    ∃ numeral : DisplayNumeral, signedText negative places count = numeral.text ∧
      numeral.text ≠ ['-', '0'] ∧ numeral.fraction.length ≤ places ∧
      numeral.value = (if negative then -1 else 1) * (count / 10 ^ places) := by
  obtain ⟨whole, fraction, zeros, ⟨isDigits, leading⟩, ⟨all, last⟩, rfl, rfl, text⟩ :=
    exists_fixedText places count
  generalize countEq : Decimal.digitsValue (whole ++ fraction) * 10 ^ zeros = count at *
  let numeral : DisplayNumeral :=
    ⟨negative && count != 0, whole, fraction, isDigits, leading, all, last⟩
  have magnitudeEq : (Decimal.digitsValue (whole ++ fraction) : ℚ) / 10 ^ fraction.length =
      count / 10 ^ (fraction.length + zeros) := by
    rw [← countEq]
    push_cast
    rw [pow_add]
    field_simp
  have valueEq : numeral.value =
      (if negative then -1 else 1) * (count / 10 ^ (fraction.length + zeros)) := by
    show (if negative && count != 0 then (-1 : ℚ) else 1) * _ = _
    rw [magnitudeEq]
    rcases Nat.eq_zero_or_pos count with isZero | positive
    · simp [isZero]
    · simp [Nat.pos_iff_ne_zero.mp positive]
  refine ⟨numeral, ?_, fun isMinusZero => ?_, Nat.le_add_right _ _, valueEq⟩
  · rw [signedText, text, DisplayNumeral.text]
    cases fraction <;> simp [numeral]
  · obtain ⟨isNegative, isZero⟩ := DisplayNumeral.of_text_eq_minus_zero isMinusZero
    obtain ⟨rfl, nonzero⟩ : negative = true ∧ count ≠ 0 := by simpa [numeral] using isNegative
    rw [valueEq] at isZero
    simp [nonzero] at isZero

/-- Distances from a finite value to multiples of `10 ^ (-places)`, counted in these. -/
theorem abs_toRat_sub (negative : Bool) (magnitude : Magnitude) (places : Nat) (other : ℤ) :
    |(Binary64.finite negative magnitude).toRat - other / 10 ^ places| =
      |sizeIn places magnitude - ((if negative then -1 else 1) * other : ℤ)| / 10 ^ places := by
  have powerPositive : (0 : ℚ) < 10 ^ places := by positivity
  have sizeEq : sizeIn places magnitude = magnitude.size * 10 ^ places := rfl
  have factored : (Binary64.finite negative magnitude).toRat - other / 10 ^ places =
      (if negative then -1 else 1) *
        ((sizeIn places magnitude - ((if negative then -1 else 1) * other : ℤ)) / 10 ^ places) := by
    rw [Binary64.toRat_finite, sizeEq]
    cases negative with
    | false =>
        simp only [Bool.false_eq_true, if_false, one_mul]
        field_simp
    | true =>
        simp only [if_true, neg_one_mul, Int.cast_neg]
        field_simp
        ring
  have unitSign : |(if negative then (-1 : ℚ) else 1)| = 1 := by
    cases negative <;> simp
  rw [factored, abs_mul, unitSign, one_mul, abs_div, abs_of_pos powerPositive]

/-- A finite value, with a bound on places that can be laid out, is shown as a numeral with at most
so many places, and never as a negative zero. It denotes the multiple of the last place that is
nearest to the value; of two equally near, the one with the even last digit. -/
theorem format_nearest_numeral {numberFormat : NumberFormat} {value : Binary64}
    (fits : numberFormat.maxFractionDigits.toNat ≤ 65535) (finite : value.isFinite = true) :
    ∃ numeral : DisplayNumeral,
      numberFormat.format value = .ok (String.ofList numeral.text) ∧
      numeral.text ≠ ['-', '0'] ∧
      numeral.fraction.length ≤ numberFormat.maxFractionDigits.toNat ∧
      ∃ count : ℤ, numeral.value = count / 10 ^ numberFormat.maxFractionDigits.toNat ∧
        ∀ other : ℤ,
          |value.toRat - numeral.value| ≤
              |value.toRat - other / 10 ^ numberFormat.maxFractionDigits.toNat| ∧
            (|value.toRat - numeral.value| =
                |value.toRat - other / 10 ^ numberFormat.maxFractionDigits.toNat| →
              other ≠ count → Even count) := by
  cases value with
  | nan => cases finite
  | infinite negative => cases finite
  | finite negative magnitude =>
      generalize placesEq : numberFormat.maxFractionDigits.toNat = places at *
      obtain ⟨numeral, text, notMinusZero, length, valueEq⟩ :=
        exists_numeral negative places (scaled places magnitude)
      have rounds := roundsTo_scaled places magnitude
      have powerPositive : (0 : ℚ) < 10 ^ places := by positivity
      let sign : ℤ := if negative then -1 else 1
      have signSquared : sign * sign = 1 := by
        cases negative <;> rfl
      have countEq : numeral.value = ((sign * scaled places magnitude : ℤ) : ℚ) / 10 ^ places := by
        rw [valueEq, ← mul_div_assoc]
        cases negative <;> simp [sign]
      have distance : |(Binary64.finite negative magnitude).toRat - numeral.value| =
          |sizeIn places magnitude - scaled places magnitude| / 10 ^ places := by
        rw [countEq, abs_toRat_sub]
        show |_ - ((sign * (sign * _) : ℤ) : ℚ)| / _ = _
        rw [← mul_assoc, signSquared, one_mul, Int.cast_natCast]
      refine ⟨numeral, ?_, notMinusZero, length, sign * scaled places magnitude, countEq,
        fun other => ?_⟩
      · rw [format_finite, placesEq, if_pos (show places ≤ precisionLimit from fits), text]
      · obtain ⟨near, even⟩ := rounds.nearest (sign * other)
        rw [distance, abs_toRat_sub]
        refine ⟨div_le_div_of_nonneg_right near powerPositive.le, fun tie different => ?_⟩
        have scaledEven : scaled places magnitude % 2 = 0 := by
          refine even ((div_left_inj' powerPositive.ne').mp tie) fun same => different ?_
          rw [← same, ← mul_assoc, signSquared, one_mul]
        exact ((Int.even_coe_nat _).mpr (Nat.even_iff.mpr scaledEven)).mul_left sign

/-- Minus a sixteenth, halfway between two multiples of a thousandth. -/
def minusSixteenth : Binary64 := .finite true ⟨4503599627370496, 1018, by decide⟩

theorem format_nearest_numeral_tie :
    standard.maxFractionDigits.toNat ≤ 65535 ∧ minusSixteenth.isFinite = true ∧
      standard.format minusSixteenth = .ok "-0.062" ∧
      ∃ numeral : DisplayNumeral, numeral.text = "-0.062".toList ∧
        numeral.fraction.length ≤ 3 ∧
        ∃ count : ℤ, numeral.value = count / 10 ^ 3 ∧
          |minusSixteenth.toRat - numeral.value| ≤ |minusSixteenth.toRat - (-63 : ℤ) / 10 ^ 3| := by
  have shown : standard.format minusSixteenth = .ok "-0.062" := by
    have text : standard.finiteText true ⟨4503599627370496, 1018, by decide⟩ =
        "-0.062".toList := by
      decide +kernel
    show Except.ok (String.ofList (standard.finiteText true _)) = _
    rw [text, String.ofList_toList]
  have fits : standard.maxFractionDigits.toNat ≤ 65535 := by decide
  have finite : minusSixteenth.isFinite = true := rfl
  obtain ⟨numeral, formatted, _, length, count, valueEq, nearest⟩ :=
    format_nearest_numeral fits finite
  rw [shown, Except.ok.injEq] at formatted
  refine ⟨fits, finite, shown, numeral, ?_, length, count, valueEq, (nearest (-63)).1⟩
  rw [formatted, String.toList_ofList]

end NumberFormat

end Keypad
