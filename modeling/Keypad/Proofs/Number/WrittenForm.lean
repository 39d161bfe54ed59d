import Keypad.Proofs.Number.Arithmetic
import Keypad.Proofs.Number.FreeForm
import Keypad.Proofs.Number.ReadsBack

/-!
Contract: a value written with the fewest digits is read back, whatever the style.

Owns:
- the grammar of written numbers: a positional form, with a power of ten behind it or none;
- that both layouts of digits are such numbers, and the number that each denotes;
- that what is written of a finite value is rounded to that value when it is read;
- that no blank stands in a written value.

Does not own: the choice of digits, what stands between written values.
-/

namespace Keypad

open Decimal (digitsValue)
open Json (IsDigits fractionText)

/-- A positional form, and the power of ten behind it if there is one. -/
structure WrittenForm where
  form : PositionalForm
  power : Option Int

namespace WrittenForm

def text (writesPlus : Bool) (written : WrittenForm) : List Char :=
  match written.power with
  | none => written.form.text
  | some power => written.form.text ++ NumeralStyle.powerText writesPlus power

/-- The number that the text denotes. -/
def size (written : WrittenForm) : ℚ := written.form.size * 10 ^ written.power.getD 0

/-- Behind either sign, the text is read as the value nearest to the number that it denotes. -/
theorem exists_ofText? (negative writesPlus : Bool) (written : WrittenForm) :
    ∃ value, Binary64.ofText? ((if negative then ['-'] else []) ++ written.text writesPlus) =
        some value ∧ Binary64.IsNearest negative written.size value := by
  obtain ⟨form, power⟩ := written
  cases power with
  | none =>
      refine ⟨_, Binary64.ofText?_form negative form, ?_⟩
      rw [size, Option.getD_none, zpow_zero, mul_one]
      exact Binary64.isNearest_form negative form
  | some power =>
      obtain ⟨digits, textEq, read⟩ := Decimal.exists_powerText writesPlus power
      have whole : text writesPlus ⟨form, some power⟩ = form.text ++ 'e' :: digits := by
        rw [← textEq]
        rfl
      rw [whole, size, Option.getD_some, form.size_eq, mul_assoc, ← zpow_add₀ (by norm_num)]
      exact ⟨_, Binary64.ofText?_form_power negative form read,
        Binary64.isNearest_ofDecimal negative _ _⟩

theorem blank_not_mem_text (writesPlus : Bool) (written : WrittenForm) :
    ' ' ∉ written.text writesPlus := by
  have notInForm : ' ' ∉ written.form.text := by
    intro member
    rcases written.form.digit_or_point ' ' member with isDigit | isPoint
    · exact absurd isDigit (by decide)
    · exact absurd isPoint (by decide)
  unfold text
  split
  · exact notInForm
  next power _ =>
    have notInDigits : ' ' ∉ Nat.toDigits 10 power.natAbs := by
      intro member
      exact absurd ((Json.isDigits_toDigits power.natAbs).all ' ' member) (by decide)
    have notInPower : ' ' ∉ NumeralStyle.powerText writesPlus power := by
      unfold NumeralStyle.powerText
      split_ifs <;> simp [notInDigits]
    rw [List.mem_append, not_or]
    exact ⟨notInForm, notInPower⟩

end WrittenForm

/-! ## Layouts -/

/-- Digits and a fraction, if there is one, are a form. -/
theorem PositionalForm.exists_text {whole : List Char} (isDigits : IsDigits whole)
    (fraction : Option (List Char)) (all : ∀ digit ∈ fraction.getD [], digit.isDigit = true) :
    ∃ form : PositionalForm, whole ++ fractionText fraction = form.text ∧
      form.size = digitsValue (whole ++ fraction.getD []) *
        10 ^ (-((fraction.getD []).length : ℤ)) := by
  have nonempty : whole ++ fraction.getD [] ≠ [] := by simp [isDigits.nonempty]
  exact ⟨⟨whole, fraction, isDigits.all, all, nonempty⟩, rfl, size_eq _⟩

namespace NumeralStyle

variable {digits : List Char}

/-- Digits with a point among them or with zeros up to it. -/
theorem exists_positional (isDigits : IsDigits digits) (place : Int) :
    ∃ form : PositionalForm, positional digits place = form.text ∧
      form.size = digitsValue digits * 10 ^ (place - digits.length) := by
  unfold positional
  -- The point stands before the digits, behind them or among them.
  split_ifs with small padded
  · obtain ⟨form, textEq, sizeEq⟩ := PositionalForm.exists_text Json.isDigits_zero (some _)
      (List.forall_mem_append.mpr ⟨Json.isDigit_of_mem_zeros (-place).toNat, isDigits.all⟩)
    have shift : -((List.replicate (-place).toNat '0' ++ digits).length : ℤ) =
        place - digits.length := by
      rw [List.length_append, List.length_replicate]
      omega
    refine ⟨form, textEq, ?_⟩
    rw [sizeEq, Option.getD_some, digitsValue, Json.ofDigitChars_zerosBefore, shift]
    rfl
  · obtain ⟨form, textEq, sizeEq⟩ := PositionalForm.exists_text
      (isDigits.append (Json.isDigit_of_mem_zeros (place - digits.length).toNat)).1 (some _)
      Json.isDigits_zero.all
    have power : (10 : ℚ) ^ ((place - digits.length).toNat + 1) * 10 ^ (-1 : ℤ) =
        10 ^ (place - digits.length) := by
      rw [← zpow_natCast, ← zpow_add₀ (by norm_num)]
      congr 1
      omega
    refine ⟨form, textEq, ?_⟩
    rw [sizeEq, Option.getD_some, digitsValue, Json.ofDigitChars_zerosBehind, Nat.cast_mul,
      Nat.cast_pow, Nat.cast_ofNat, List.length_singleton, Nat.cast_one, mul_assoc, power]
    rfl
  · obtain ⟨form, textEq, sizeEq⟩ := PositionalForm.exists_text
      (isDigits.take (show 0 < place.toNat by omega)) (some _)
      (fun digit member => isDigits.all digit (List.mem_of_mem_drop member))
    have shift : -((digits.drop place.toNat).length : ℤ) = place - digits.length := by
      rw [List.length_drop]
      omega
    refine ⟨form, textEq, ?_⟩
    rw [sizeEq, Option.getD_some, List.take_append_drop, shift]

/-- One digit before the point. -/
theorem exists_scientific (writesPlus : Bool) (isDigits : IsDigits digits) (place : Int) :
    ∃ written : WrittenForm, scientific writesPlus digits place = written.text writesPlus ∧
      written.size = digitsValue digits * 10 ^ (place - digits.length) := by
  have fractionEq := Json.getD_nonemptyFraction (digits.drop 1)
  have fractionAll : ∀ digit ∈ digits.drop 1, digit.isDigit = true :=
    fun digit member => isDigits.all digit (List.mem_of_mem_drop member)
  obtain ⟨form, textEq, sizeEq⟩ :=
    PositionalForm.exists_text (isDigits.take Nat.one_pos) _ (fractionEq ▸ fractionAll)
  have shift : -((digits.drop 1).length : ℤ) + (place - 1) = place - digits.length := by
    have lengthPositive := List.length_pos_iff.mpr isDigits.nonempty
    rw [List.length_drop]
    omega
  refine ⟨⟨form, some (place - 1)⟩, ?_, ?_⟩
  · rw [Json.fractionText_nonemptyFraction] at textEq
    rw [WrittenForm.text, ← textEq]
    rfl
  · rw [WrittenForm.size, Option.getD_some, sizeEq, fractionEq, List.take_append_drop, mul_assoc,
      ← zpow_add₀ (by norm_num), shift]

/-- Either layout denotes the digits with the point at its place. -/
theorem exists_layout (style : NumeralStyle) (isDigits : IsDigits digits) (place : Int) :
    ∃ written : WrittenForm,
      (if style.leastPlace ≤ place ∧ place ≤ style.greatestPlace then positional digits place
        else scientific style.writesPlus digits place) = written.text style.writesPlus ∧
      written.size = digitsValue digits * 10 ^ (place - digits.length) := by
  split_ifs
  · obtain ⟨form, textEq, sizeEq⟩ := exists_positional isDigits place
    refine ⟨⟨form, none⟩, textEq, ?_⟩
    rw [WrittenForm.size, Option.getD_none, zpow_zero, mul_one, sizeEq]
  · exact exists_scientific style.writesPlus isDigits place

/-- In every style, a magnitude is written as a number that is rounded to it. -/
theorem exists_unsigned (style : NumeralStyle) (magnitude : Magnitude) :
    ∃ written : WrittenForm, style.unsigned magnitude = written.text style.writesPlus ∧
      ∀ negative, Binary64.IsNearest negative written.size (.finite negative magnitude) := by
  unfold unsigned
  by_cases isZero : magnitude.isZero = true
  · obtain ⟨form, textEq, sizeEq⟩ := PositionalForm.exists_text Json.isDigits_zero
      (some ['0']) Json.isDigits_zero.all
    have formSize : form.size = magnitude.size := by
      have units : magnitude.units = 0 := by
        rw [Magnitude.units, magnitude.isZero_iff.mp isZero, Nat.zero_mul]
      have digitsZero : digitsValue (['0'] ++ (some ['0']).getD []) = 0 := rfl
      rw [sizeEq, digitsZero, Magnitude.size, units, Nat.cast_zero, zero_mul, zero_div]
    rw [if_pos isZero]
    refine ⟨⟨form, none⟩, textEq, fun negative => ?_⟩
    rw [WrittenForm.size, Option.getD_none, zpow_zero, mul_one, formSize]
    exact Binary64.isNearest_size negative magnitude
  · have nonzero : magnitude.significand ≠ 0 := magnitude.isZero_iff.not.mp isZero
    have isDigits := Json.isDigits_toDigits (magnitude.shortest style.halfway).coefficient
    have value : digitsValue (Nat.toDigits 10 (magnitude.shortest style.halfway).coefficient) =
        (magnitude.shortest style.halfway).coefficient := Nat.ofDigitChars_ten_toDigits
    obtain ⟨written, textEq, sizeEq⟩ := exists_layout style isDigits
      (_ + (magnitude.shortest style.halfway).exponent)
    rw [if_neg isZero]
    refine ⟨written, textEq, fun negative => ?_⟩
    rw [sizeEq, value, add_sub_cancel_left]
    exact Binary64.isNearest_shortest negative style.halfway nonzero

/-- A finite value is written as its sign and a number that is rounded to it. -/
theorem exists_write (style : NumeralStyle) (negative : Bool) (magnitude : Magnitude) :
    ∃ written : WrittenForm,
      style.write (.finite negative magnitude) =
        (if negative then ['-'] else []) ++ written.text style.writesPlus ∧
      Binary64.IsNearest negative written.size (.finite negative magnitude) := by
  obtain ⟨written, textEq, nearest⟩ := style.exists_unsigned magnitude
  refine ⟨written, ?_, nearest negative⟩
  rw [write, textEq]

end NumeralStyle

namespace Binary64

/-- What is written of a finite value is read as that value, its sign included. -/
theorem ofText?_write_finite (style : NumeralStyle) (negative : Bool) (magnitude : Magnitude) :
    ofText? (style.write (.finite negative magnitude)) = some (.finite negative magnitude) := by
  obtain ⟨written, textEq, nearest⟩ := style.exists_write negative magnitude
  obtain ⟨value, read, rounded⟩ := written.exists_ofText? negative style.writesPlus
  rw [textEq, read, rounded.unique nearest]

/-- The row text of a value is read as that value. -/
theorem ofText?_rowText (value : Binary64) : ofText? value.rowText.toList = some value := by
  unfold rowText
  rw [String.toList_ofList]
  cases value with
  | nan => rfl
  | infinite negative => cases negative <;> rfl
  | finite negative magnitude => exact ofText?_write_finite .row negative magnitude

/-- The row text of a value has no blank. -/
theorem blank_not_mem_rowText (value : Binary64) : ' ' ∉ value.rowText.toList := by
  unfold rowText
  rw [String.toList_ofList]
  cases value with
  | nan => decide
  | infinite negative => cases negative <;> decide
  | finite negative magnitude =>
      obtain ⟨written, textEq, _⟩ := NumeralStyle.row.exists_write negative magnitude
      have notInSign : ' ' ∉ (if negative then ['-'] else [] : List Char) := by
        cases negative <;> decide
      rw [textEq, List.mem_append, not_or]
      exact ⟨notInSign, written.blank_not_mem_text _⟩

end Binary64

end Keypad
