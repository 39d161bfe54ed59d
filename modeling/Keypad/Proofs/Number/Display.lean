import Mathlib.Data.List.DropRight
import Mathlib.Tactic.LinearCombination
import Keypad.Proofs.Number.Positional
import Keypad.Proofs.Number.Shortest

/-!
Contract: what the display shows of a finite value, and what is read from that again.

Owns:
- a nearest whole number, the even one of two, and its uniqueness;
- that the display shows the nearest multiple of the last place, whatever places it leaves out;
- that the text of a multiple is read as the value nearest to it;
- that this value is shown by the same text.

Does not own: infinities and what is no number, which are shown as words.
-/

namespace Keypad

open Json (IsDigits isDigits_toDigits toDigits_head_ne_zero)

/-! ## Nearest whole numbers -/

/-- A whole number is nearest to an exact one, and even where another one is equally near. -/
structure RoundsTo (exact : ℚ) (count : Nat) : Prop where
  near : |exact - count| ≤ 1 / 2
  even : |exact - count| = 1 / 2 → count % 2 = 0

theorem RoundsTo.unique {exact : ℚ} {left right : Nat} (leftRounds : RoundsTo exact left)
    (rightRounds : RoundsTo exact right) : left = right := by
  by_contra different
  have apart : (1 : ℤ) ≤ |(left : ℤ) - right| := Int.one_le_abs (by omega)
  have apartRat : (1 : ℚ) ≤ |(left : ℚ) - right| := by exact_mod_cast apart
  have leftNear := leftRounds.near
  have rightNear := rightRounds.near
  have triangle := abs_sub_le (left : ℚ) exact right
  rw [abs_sub_comm (left : ℚ) exact] at triangle
  have leftEven := leftRounds.even (by linarith)
  have rightEven := rightRounds.even (by linarith)
  have neighbours : |(left : ℤ) - right| ≤ 1 := by
    have neighboursRat : |(left : ℚ) - right| ≤ 1 := by linarith
    exact_mod_cast neighboursRat
  rw [abs_le] at neighbours
  omega

theorem roundsTo_self (count : Nat) : RoundsTo count count := by
  constructor <;> norm_num

theorem Magnitude.units_add_unitsPerOne_le (magnitude : Magnitude) :
    magnitude.units + unitsPerOne ≤ overflowUnits := by
  obtain ⟨significandBound, exponentBound, _⟩ := magnitude.canonical
  have powerMono : ∀ {low high : Nat}, low ≤ high → 2 ^ low ≤ 2 ^ high :=
    Nat.pow_le_pow_right (by decide)
  have room : ∀ power : Nat, 1074 ≤ power → magnitude.exponent ≤ power + 1 →
      magnitude.units + unitsPerOne ≤ 18014398509481983 * 2 ^ power := by
    intro power atLeastOne bounded
    have bound : magnitude.units ≤ 9007199254740991 * 2 ^ (power + 1) :=
      Nat.mul_le_mul (by omega) (powerMono bounded)
    have one : unitsPerOne ≤ 2 ^ power :=
      DecimalGrid.unitsPerOne_eq.trans_le (powerMono atLeastOne)
    rw [Nat.pow_succ] at bound
    omega
  exact room 2044 (by decide) exponentBound

namespace NumberFormat

/-! ## Texts -/

/-- The digits of a whole number, with as many zeros before them as leave one digit before the
point. -/
def padded (places count : Nat) : List Char :=
  List.replicate (places + 1 - (Nat.toDigits 10 count).length) '0' ++ Nat.toDigits 10 count

theorem isDigits_padded (places count : Nat) : IsDigits (padded places count) :=
  ((isDigits_toDigits count).append (Json.isDigit_of_mem_zeros _)).2

theorem lt_length_padded (places count : Nat) : places < (padded places count).length := by
  simp only [padded, List.length_append, List.length_replicate]
  omega

theorem digitsValue_padded (places count : Nat) :
    Decimal.digitsValue (padded places count) = count := by
  unfold Decimal.digitsValue padded
  rw [Nat.ofDigitChars_append, Nat.ofDigitChars_replicate_zero, Nat.mul_zero,
    Nat.ofDigitChars_toDigits (by decide) (by decide)]

/-- Ten times a whole number has one more digit, a zero. -/
theorem padded_mul_ten (places count : Nat) :
    padded (places + 1) (count * 10) = padded places count ++ ['0'] := by
  unfold padded
  rcases Nat.eq_zero_or_pos count with rfl | positive
  · have zero : Nat.toDigits 10 0 = ['0'] := rfl
    rw [Nat.zero_mul, zero, List.length_singleton, Nat.add_sub_cancel, Nat.add_sub_cancel,
      List.replicate_succ']
  · have digits : Nat.toDigits 10 (count * 10) = Nat.toDigits 10 count ++ ['0'] := by
      rw [Nat.toDigits_eq_if (by decide), if_neg (by omega), Nat.mul_div_cancel _ (by decide),
        Nat.mul_mod_left]
      rfl
    rw [digits, List.length_append, List.length_singleton, Nat.add_sub_add_right,
      List.append_assoc]

/-- The digits before the point. -/
def wholeDigits (places count : Nat) : List Char :=
  (padded places count).take ((padded places count).length - places)

/-- The digits behind the point, idle zeros at the end among them. -/
def fractionDigits (places count : Nat) : List Char :=
  (padded places count).drop ((padded places count).length - places)

theorem fixedText_eq (places count : Nat) :
    fixedText places count =
      if (dropTrailingZeros (fractionDigits places count)).isEmpty then wholeDigits places count
      else wholeDigits places count ++
        Decimal.point :: dropTrailingZeros (fractionDigits places count) :=
  rfl

theorem isDigits_wholeDigits (places count : Nat) : IsDigits (wholeDigits places count) :=
  (isDigits_padded places count).take (Nat.sub_pos_of_lt (lt_length_padded places count))

theorem length_fractionDigits (places count : Nat) :
    (fractionDigits places count).length = places := by
  have longer := lt_length_padded places count
  rw [fractionDigits, List.length_drop]
  omega

theorem wholeDigits_append_fractionDigits (places count : Nat) :
    wholeDigits places count ++ fractionDigits places count = padded places count :=
  List.take_append_drop _ _

theorem wholeDigits_mul_ten (places count : Nat) :
    wholeDigits (places + 1) (count * 10) = wholeDigits places count := by
  unfold wholeDigits
  rw [padded_mul_ten, List.length_append, List.length_singleton, Nat.add_sub_add_right,
    List.take_append_of_le_length (Nat.sub_le _ _)]

theorem fractionDigits_mul_ten (places count : Nat) :
    fractionDigits (places + 1) (count * 10) = fractionDigits places count ++ ['0'] := by
  unfold fractionDigits
  rw [padded_mul_ten, List.length_append, List.length_singleton, Nat.add_sub_add_right,
    List.drop_append_of_le_length (Nat.sub_le _ _)]

/-- A zero that is written behind the fraction is dropped again. -/
theorem fixedText_mul_ten (places count : Nat) :
    fixedText (places + 1) (count * 10) = fixedText places count := by
  have dropped : ∀ digits : List Char,
      dropTrailingZeros (digits ++ ['0']) = dropTrailingZeros digits :=
    fun digits => List.rdropWhile_concat_pos _ digits _ rfl
  rw [fixedText_eq, fixedText_eq, wholeDigits_mul_ten, fractionDigits_mul_ten, dropped]

theorem fixedText_mul_pow (places count more : Nat) :
    fixedText (places + more) (count * 10 ^ more) = fixedText places count := by
  induction more with
  | zero => rw [Nat.pow_zero, Nat.mul_one, Nat.add_zero]
  | succ more inductionHypothesis =>
      rw [Nat.pow_succ, ← Nat.mul_assoc, ← Nat.add_assoc, fixedText_mul_ten, inductionHypothesis]

theorem exists_zeros_dropped (digits : List Char) :
    ∃ zeros, dropTrailingZeros digits ++ List.replicate zeros '0' = digits := by
  refine ⟨(digits.rtakeWhile (· = '0')).length, ?_⟩
  have zeros : digits.rtakeWhile (· = '0') =
      List.replicate (digits.rtakeWhile (· = '0')).length '0' := by
    rw [List.eq_replicate_iff]
    exact ⟨rfl, fun digit member => by simpa using List.mem_rtakeWhile_imp member⟩
  rw [← zeros]
  exact List.rdropWhile_append_rtakeWhile

theorem length_wholeDigits (places count : Nat) :
    (wholeDigits places count).length = (padded places count).length - places := by
  rw [wholeDigits, List.length_take]
  omega

/-- Zeros are put before the digits only as far as to the first place before the point. -/
theorem wholeDigits_leading {places count : Nat}
    (leading : (wholeDigits places count).head? = some '0') : wholeDigits places count = ['0'] := by
  rcases Nat.lt_or_ge places (Nat.toDigits 10 count).length with long | short
  · have unpadded : padded places count = Nat.toDigits 10 count := by
      rw [padded, Nat.sub_eq_zero_of_le long, List.replicate_zero, List.nil_append]
    have headed : (wholeDigits places count).head? = (Nat.toDigits 10 count).head? := by
      rw [wholeDigits, unpadded, List.head?_take, if_neg (by omega)]
    rcases Nat.eq_zero_or_pos count with rfl | positive
    · have noPlaces : places = 0 := Nat.lt_one_iff.mp long
      rw [noPlaces]
      rfl
    · exact absurd (headed.symm.trans leading) (toDigits_head_ne_zero positive)
  · have single : (wholeDigits places count).length = 1 := by
      rw [length_wholeDigits, padded, List.length_append, List.length_replicate]
      omega
    obtain ⟨digit, digitEq⟩ := List.length_eq_one_iff.mp single
    rw [digitEq] at leading ⊢
    cases leading
    rfl

theorem getLast?_dropTrailingZeros (digits : List Char) :
    (dropTrailingZeros digits).getLast? ≠ some '0' := by
  intro isZero
  have nonempty : dropTrailingZeros digits ≠ [] := by
    intro isNil
    rw [isNil] at isZero
    cases isZero
  rw [List.getLast?_eq_some_getLast nonempty, Option.some.injEq] at isZero
  exact List.rdropWhile_last_not _ digits nonempty (decide_eq_true isZero)

/-- The parts of a text: digits before the point, without zeros before the first unless it is the only
one, digits behind the point, and the zeros that are left out. -/
theorem exists_fixedText (places count : Nat) :
    ∃ whole fraction zeros, (IsDigits whole ∧ (whole.head? = some '0' → whole = ['0'])) ∧
      ((∀ digit ∈ fraction, digit.isDigit = true) ∧ fraction.getLast? ≠ some '0') ∧
      fraction.length + zeros = places ∧
      Decimal.digitsValue (whole ++ fraction) * 10 ^ zeros = count ∧
      fixedText places count =
        if fraction.isEmpty then whole else whole ++ Decimal.point :: fraction := by
  obtain ⟨zeros, tailEq⟩ := exists_zeros_dropped (fractionDigits places count)
  have parts : wholeDigits places count ++ dropTrailingZeros (fractionDigits places count) ++
      List.replicate zeros '0' = padded places count := by
    rw [List.append_assoc, tailEq, wholeDigits_append_fractionDigits]
  refine ⟨wholeDigits places count, dropTrailingZeros (fractionDigits places count), zeros,
    ⟨isDigits_wholeDigits places count, wholeDigits_leading⟩,
    ⟨fun digit member => ?_, getLast?_dropTrailingZeros _⟩, ?_, ?_, fixedText_eq places count⟩
  · refine (isDigits_padded places count).all digit ?_
    rw [← parts]
    exact List.mem_append_left _ (List.mem_append_right _ member)
  · have lengths := congrArg List.length tailEq
    rw [length_fractionDigits, List.length_append, List.length_replicate] at lengths
    exact lengths
  · have value := digitsValue_padded places count
    rw [← parts, Decimal.digitsValue_append, Nat.ofDigitChars_replicate_zero] at value
    rw [Nat.mul_comm]
    exact value

theorem exists_digits_fixedText (places count : Nat) :
    ∃ whole more, IsDigits whole ∧ fixedText places count = whole ++ more := by
  obtain ⟨whole, fraction, _, ⟨isDigits, _⟩, _, _, _, text⟩ := exists_fixedText places count
  rw [text]
  split
  · exact ⟨whole, [], isDigits, (List.append_nil whole).symm⟩
  · exact ⟨whole, Decimal.point :: fraction, isDigits, rfl⟩

/-- A text is read as the number that it was made for. -/
theorem ofPositional?_fixedText (places count : Nat) :
    ∃ decimal, Decimal.ofPositional? (fixedText places count) = some decimal ∧
      (decimal.coefficient : ℚ) * 10 ^ decimal.exponent = count / 10 ^ places := by
  obtain ⟨whole, fraction, zeros, ⟨isDigits, _⟩, ⟨all, _⟩, rfl, rfl, text⟩ :=
    exists_fixedText places count
  refine ⟨⟨Decimal.digitsValue (whole ++ fraction), -(fraction.length : ℤ)⟩, ?_, ?_⟩
  · rw [text]
    split
    next isEmpty =>
      rw [List.isEmpty_iff.mp isEmpty, List.append_nil]
      exact Decimal.ofPositional?_whole isDigits
    · exact Decimal.ofPositional?_pointed isDigits.all all (by simp [isDigits.nonempty])
  · push_cast
    rw [zpow_neg, zpow_natCast, pow_add]
    field_simp

/-! ## Rounding -/

/-- The size of a magnitude, counted in `10 ^ (-places)`. -/
def sizeIn (places : Nat) (magnitude : Magnitude) : ℚ :=
  (magnitude.units : ℚ) / Magnitude.unitsPerOne * 10 ^ places

variable {places : Nat} {magnitude : Magnitude}

theorem sizeIn_eq (places : Nat) (magnitude : Magnitude) :
    sizeIn places magnitude =
      ((magnitude.significand * Nat.pow 2 (magnitude.exponent - 1074) * Nat.pow 10 places : Nat)
        : ℚ) / (Nat.pow 2 (1074 - magnitude.exponent) : Nat) := by
  have unitsPositive := DecimalGrid.unitsPerOne_pos_rat
  have powers : (2 : ℚ) ^ (magnitude.exponent - 1074) * Magnitude.unitsPerOne =
      2 ^ (1074 - magnitude.exponent) * 2 ^ magnitude.exponent := by
    exact_mod_cast DecimalGrid.power_mul_unitsPerOne magnitude.exponent
  have unitsEq : (magnitude.units : ℚ) = magnitude.significand * 2 ^ magnitude.exponent := by
    exact_mod_cast rfl
  unfold sizeIn
  rw [unitsEq, Nat.pow_eq, Nat.pow_eq, Nat.pow_eq]
  generalize (Magnitude.unitsPerOne : ℚ) = units at *
  push_cast
  rw [div_mul_eq_mul_div, div_eq_div_iff unitsPositive.ne' (by positivity)]
  linear_combination (-(magnitude.significand : ℚ) * 10 ^ places) * powers

theorem roundsTo_scaled (places : Nat) (magnitude : Magnitude) :
    RoundsTo (sizeIn places magnitude) (scaled places magnitude) := by
  obtain ⟨near, even⟩ := roundHalfEven_distance
    (magnitude.significand * Nat.pow 2 (magnitude.exponent - 1074) * Nat.pow 10 places)
    (Nat.two_pow_pos (1074 - magnitude.exponent))
  rw [sizeIn_eq]
  exact ⟨near, even⟩

/-- With as many places as its binary fraction has, a magnitude is a whole number. -/
theorem exists_sizeIn (long : 1074 - magnitude.exponent ≤ places) :
    ∃ count : Nat, sizeIn places magnitude = count := by
  obtain ⟨more, rfl⟩ := Nat.exists_eq_add_of_le long
  refine ⟨magnitude.significand * 2 ^ (magnitude.exponent - 1074) *
    (5 ^ (1074 - magnitude.exponent) * 10 ^ more), ?_⟩
  have ten : (10 : ℚ) ^ (1074 - magnitude.exponent) =
      2 ^ (1074 - magnitude.exponent) * 5 ^ (1074 - magnitude.exponent) := by
    rw [← mul_pow]
    norm_num
  rw [sizeIn_eq, Nat.pow_eq, Nat.pow_eq, Nat.pow_eq]
  push_cast
  rw [pow_add, ten]
  field_simp

/-- Places beyond the binary fraction's length hold zeros. -/
theorem scaled_add (long : 1074 - magnitude.exponent ≤ places) (more : Nat) :
    scaled (places + more) magnitude = scaled places magnitude * 10 ^ more := by
  obtain ⟨count, whole⟩ := exists_sizeIn long
  have exact : scaled places magnitude = count := by
    refine (roundsTo_scaled places magnitude).unique ?_
    rw [whole]
    exact roundsTo_self count
  have longer : sizeIn (places + more) magnitude = (count * 10 ^ more : Nat) := by
    push_cast
    rw [← whole]
    unfold sizeIn
    rw [pow_add, mul_assoc]
  refine (roundsTo_scaled _ magnitude).unique ?_
  rw [exact, longer]
  exact roundsTo_self _

/-- A magnitude that is nearest to a rounded one is rounded in the same way: the rounded one is no
farther from it than from the magnitude that was rounded. -/
theorem scaled_of_nearestTo {nearest : Magnitude}
    (near : nearest.NearestTo
      ((scaled places magnitude : ℚ) / 10 ^ places * Magnitude.unitsPerOne)) :
    scaled places nearest = scaled places magnitude := by
  have unitsPositive := DecimalGrid.unitsPerOne_pos_rat
  have distance : ∀ other : Magnitude,
      |sizeIn places other - scaled places magnitude| =
        |(scaled places magnitude : ℚ) / 10 ^ places * Magnitude.unitsPerOne - other.units| *
          (10 ^ places / Magnitude.unitsPerOne) := by
    intro other
    rw [← abs_of_pos (show (0 : ℚ) < 10 ^ places / Magnitude.unitsPerOne from
      div_pos (by positivity) unitsPositive), ← abs_mul, abs_sub_comm]
    unfold sizeIn
    generalize (Magnitude.unitsPerOne : ℚ) = units at *
    refine congrArg abs ?_
    field_simp
  have closer : |sizeIn places nearest - scaled places magnitude| ≤
      |sizeIn places magnitude - scaled places magnitude| := by
    rw [distance, distance]
    exact mul_le_mul_of_nonneg_right (near.near magnitude)
      (div_nonneg (by positivity) unitsPositive.le)
  have rounds := roundsTo_scaled places magnitude
  refine (roundsTo_scaled places nearest).unique ⟨closer.trans rounds.near, fun tie => ?_⟩
  exact rounds.even (le_antisymm rounds.near (tie ▸ closer))

/-- Rounding to places does not leave the range of finite values. -/
theorem scaled_lt_overflowUnits (places : Nat) (magnitude : Magnitude) :
    (scaled places magnitude : ℚ) / 10 ^ places * Magnitude.unitsPerOne <
      Magnitude.overflowUnits := by
  have unitsPositive := DecimalGrid.unitsPerOne_pos_rat
  have range : (magnitude.units : ℚ) + Magnitude.unitsPerOne ≤ Magnitude.overflowUnits := by
    exact_mod_cast Magnitude.units_add_unitsPerOne_le magnitude
  have near := (abs_le.mp (roundsTo_scaled places magnitude).near).1
  have atLeastOne : (1 : ℚ) ≤ 10 ^ places := one_le_pow₀ (by norm_num)
  unfold sizeIn at near
  generalize (Magnitude.unitsPerOne : ℚ) = units at *
  have bound : (scaled places magnitude : ℚ) ≤
      (magnitude.units / units + 1 / 2) * 10 ^ places := by
    nlinarith
  calc (scaled places magnitude : ℚ) / 10 ^ places * units
      ≤ (magnitude.units / units + 1 / 2) * units := by
        refine mul_le_mul_of_nonneg_right ?_ unitsPositive.le
        exact (div_le_iff₀ (by positivity)).mpr bound
    _ = magnitude.units + units / 2 := by field_simp
    _ < Magnitude.overflowUnits := by linarith

/-! ## Reading what is shown -/

/-- The display form of a whole number of `10 ^ (-places)` with a sign, which zero does not have. -/
def signedText (negative : Bool) (places count : Nat) : List Char :=
  (if negative && count != 0 then ['-'] else []) ++ fixedText places count

/-- The places that are not worth writing would only hold zeros. -/
theorem finiteText_eq (numberFormat : NumberFormat) (negative : Bool) (magnitude : Magnitude) :
    numberFormat.finiteText negative magnitude =
      signedText negative numberFormat.maxFractionDigits.toNat
        (scaled numberFormat.maxFractionDigits.toNat magnitude) := by
  unfold finiteText NumberFormat.places
  rcases Nat.le_total numberFormat.maxFractionDigits.toNat (1074 - magnitude.exponent) with
    few | many
  · rw [Nat.min_eq_left few]
    rfl
  · obtain ⟨more, digits⟩ := Nat.exists_eq_add_of_le many
    have sameSign : (scaled (1074 - magnitude.exponent) magnitude * 10 ^ more != 0) =
        (scaled (1074 - magnitude.exponent) magnitude != 0) := by
      simp [bne]
    rw [Nat.min_eq_right many, digits, scaled_add (Nat.le_refl _), signedText, fixedText_mul_pow,
      sameSign]

theorem parse_signedText (negative : Bool) (places count : Nat) :
    ∃ value, parse (String.ofList (signedText negative places count)) = some value ∧
      Binary64.IsNearest (negative && count != 0) (count / 10 ^ places) value := by
  obtain ⟨decimal, read, size⟩ := ofPositional?_fixedText places count
  have near := fun sign =>
    Binary64.isNearest_ofDecimal sign decimal.coefficient decimal.exponent
  rw [size] at near
  refine ⟨_, ?_, near (negative && count != 0)⟩
  unfold signedText
  cases negative && count != 0 with
  | true => exact (parse_minus _).trans (congrArg _ read)
  | false =>
      obtain ⟨whole, more, isDigits, text⟩ := exists_digits_fixedText places count
      rw [text] at read ⊢
      exact (parse_digits isDigits more).trans (congrArg _ read)

theorem format_finite (numberFormat : NumberFormat) (negative : Bool) (magnitude : Magnitude) :
    numberFormat.format (.finite negative magnitude) =
      if numberFormat.maxFractionDigits.toNat ≤ precisionLimit then
        .ok (String.ofList (signedText negative numberFormat.maxFractionDigits.toNat
          (scaled numberFormat.maxFractionDigits.toNat magnitude)))
      else
        .error .precisionOutOfRange := by
  rw [← finiteText_eq]
  rfl

/-- What is shown of a finite value is read as a finite value, and the same is shown of that. -/
theorem format_of_parse {numberFormat : NumberFormat} {value : Binary64} {text : String}
    (finite : value.isFinite = true) (formatted : numberFormat.format value = .ok text) :
    ∃ shown, parse text = some shown ∧ shown.isFinite = true ∧
      numberFormat.format shown = .ok text := by
  cases value with
  | nan => cases finite
  | infinite negative => cases finite
  | finite negative magnitude =>
      rw [format_finite] at formatted
      split at formatted
      next fits =>
        cases formatted
        obtain ⟨shown, read, nearest⟩ := parse_signedText negative
          numberFormat.maxFractionDigits.toNat
          (scaled numberFormat.maxFractionDigits.toNat magnitude)
        refine ⟨shown, read, ?_⟩
        cases nearest with
        | infinite beyond =>
            exact absurd beyond (not_le.mpr (scaled_lt_overflowUnits _ magnitude))
        | finite inRange near =>
            refine ⟨rfl, ?_⟩
            rw [format_finite, if_pos fits, scaled_of_nearestTo near]
            simp [signedText]
      · cases formatted

end NumberFormat

end Keypad
