import Keypad.Json.NumberText
import Keypad.Proofs.Json.NumberRange

/-!
Contract: the text of a finite number is read as one literal, and its value is finite.

Owns:
- literals as texts: the grammar's literals, and that their texts are read as them, whatever follows
  that does not continue a number;
- what a literal denotes when all its digits are taken;
- the literal of each layout of digits.

Does not own: whether the value read is the value written.
-/

namespace Keypad.Json

/-! ## Digits -/

/-- At least one digit and nothing else. -/
structure IsDigits (digits : List Char) : Prop where
  nonempty : digits ≠ []
  all : ∀ digit ∈ digits, digit.isDigit = true

/-- A text that does not begin with a digit. -/
def endsDigits : List Char → Bool
  | [] => true
  | next :: _ => !next.isDigit

/-- A text that does not continue a number before it. -/
def endsNumber : List Char → Bool
  | [] => true
  | next :: _ => !(next.isDigit || next = '.' || next = 'e' || next = 'E')

theorem isDigits_zero : IsDigits ['0'] := ⟨by simp, by simp⟩

theorem isDigit_of_mem_zeros (count : Nat) :
    ∀ digit ∈ List.replicate count '0', digit.isDigit = true := by
  intro digit member
  rw [List.eq_of_mem_replicate member]
  rfl

theorem IsDigits.append {left right : List Char} (isDigits : IsDigits left)
    (all : ∀ digit ∈ right, digit.isDigit = true) :
    IsDigits (left ++ right) ∧ IsDigits (right ++ left) := by
  refine ⟨⟨by simp [isDigits.nonempty], fun digit member => ?_⟩,
    ⟨by simp [isDigits.nonempty], fun digit member => ?_⟩⟩
  · exact (List.mem_append.mp member).elim (isDigits.all digit) (all digit)
  · exact (List.mem_append.mp member).elim (all digit) (isDigits.all digit)

theorem IsDigits.take {digits : List Char} (isDigits : IsDigits digits) {count : Nat}
    (positive : 0 < count) : IsDigits (digits.take count) :=
  ⟨by simp [isDigits.nonempty, Nat.pos_iff_ne_zero.mp positive],
    fun digit member => isDigits.all digit (List.mem_of_mem_take member)⟩

theorem IsDigits.drop {digits : List Char} (isDigits : IsDigits digits) {count : Nat}
    (nonempty : digits.drop count ≠ []) : IsDigits (digits.drop count) :=
  ⟨nonempty, fun digit member => isDigits.all digit (List.mem_of_mem_drop member)⟩

theorem isDigits_toDigits (value : Nat) : IsDigits (Nat.toDigits 10 value) :=
  ⟨Nat.toDigits_ne_nil, fun _ member => Nat.isDigit_of_mem_toDigits (by decide) (by decide) member⟩

theorem toDigits_head_ne_zero {value : Nat} (positive : 0 < value) :
    (Nat.toDigits 10 value).head? ≠ some '0' := by
  induction value using Nat.strongRecOn with
  | ind value inductionHypothesis =>
      rw [Nat.toDigits_eq_if (by decide)]
      split
      next small =>
        have notZero : ∀ digit < 10, 0 < digit → Nat.digitChar digit ≠ '0' := by decide
        simpa using notZero value small positive
      next large =>
        have smaller := inductionHypothesis (value / 10) (by omega) (by omega)
        rw [List.head?_append]
        cases leading : (Nat.toDigits 10 (value / 10)).head? with
        | none => exact absurd (List.head?_eq_none_iff.mp leading) Nat.toDigits_ne_nil
        | some first => simpa [leading] using smaller

theorem readDigits_append {digits rest : List Char} (isDigits : IsDigits digits)
    (ends : endsDigits rest = true) : readDigits (digits ++ rest) = .ok (digits, rest) := by
  have taken : (digits ++ rest).takeWhile Char.isDigit = digits := by
    rw [List.takeWhile_append_of_pos isDigits.all]
    cases rest with
    | nil => simp
    | cons next tail => simp_all [endsDigits]
  have dropped : (digits ++ rest).dropWhile Char.isDigit = rest := by
    rw [List.dropWhile_append_of_pos isDigits.all]
    cases rest with
    | nil => simp
    | cons next tail => simp_all [endsDigits]
  unfold readDigits
  split
  next isNil => exact absurd (List.append_eq_nil_iff.mp isNil).1 isDigits.nonempty
  next first tail isCons =>
    have firstDigit : first.isDigit = true := by
      cases digits with
      | nil => exact absurd rfl isDigits.nonempty
      | cons digit digits =>
          cases isCons
          exact isDigits.all _ (List.mem_cons_self ..)
    rw [if_pos firstDigit, taken, dropped]

theorem endsDigits_of_endsNumber {rest : List Char} (ends : endsNumber rest = true) :
    endsDigits rest = true := by
  cases rest with
  | nil => rfl
  | cons next tail =>
      simp only [endsNumber, Bool.not_eq_true', Bool.or_eq_false_iff] at ends
      simp [endsDigits, ends]

/-! ## Literals as texts -/

/-- The text of a fraction, if there is one. -/
def fractionText : Option (List Char) → List Char
  | none => []
  | some digits => '.' :: digits

/-- The text of a power of ten, if there is one, with its sign. -/
def powerText : Option PowerLiteral → List Char
  | none => []
  | some power => 'e' :: (if power.negative then '-' else '+') :: power.digits

/-- The sign of a power of ten, which may be left out. -/
inductive SpellsSign : List Char → Bool → Prop where
  | absent : SpellsSign [] false
  | plus : SpellsSign ['+'] false
  | minus : SpellsSign ['-'] true

/-- A spelling of a power of ten, if there is one. -/
inductive SpellsPower : List Char → Option PowerLiteral → Prop where
  | absent : SpellsPower [] none
  | present {mark : Char} {sign digits : List Char} {negative : Bool}
      (isMark : mark = 'e' ∨ mark = 'E')
      (signed : SpellsSign sign negative)
      (isDigits : IsDigits digits) :
      SpellsPower (mark :: (sign ++ digits)) (some ⟨negative, digits⟩)

theorem spellsPower_powerText {power : Option PowerLiteral}
    (isDigits : ∀ written ∈ power, IsDigits written.digits) :
    SpellsPower (powerText power) power := by
  cases power with
  | none => exact .absent
  | some written =>
      obtain ⟨negative, digits⟩ := written
      cases negative with
      | true => exact .present (.inl rfl) .minus (isDigits _ rfl)
      | false => exact .present (.inl rfl) .plus (isDigits _ rfl)

section Parts

variable {text rest : List Char} {power : Option PowerLiteral}

theorem SpellsPower.endsDigits (spelled : SpellsPower text power) (ends : endsNumber rest = true) :
    endsDigits (text ++ rest) = true := by
  cases spelled with
  | absent => exact endsDigits_of_endsNumber ends
  | present isMark _ _ => rcases isMark with rfl | rfl <;> rfl

theorem endsDigits_fractionText (fraction : Option (List Char))
    (ends : endsDigits rest = true) : endsDigits (fractionText fraction ++ rest) = true := by
  cases fraction with
  | none => exact ends
  | some digits => rfl

theorem SpellsPower.readPower (spelled : SpellsPower text power) (ends : endsNumber rest = true) :
    readPower (text ++ rest) = .ok (power, rest) := by
  cases spelled with
  | absent =>
      cases rest with
      | nil => rfl
      | cons next tail =>
          simp only [endsNumber, Bool.not_eq_true', Bool.or_eq_false_iff,
            decide_eq_false_iff_not] at ends
          simp [Json.readPower, ends]
  | @present mark sign digits negative isMark signed isDigits =>
      have digitsRead := readDigits_append isDigits (endsDigits_of_endsNumber ends)
      have signedRead : Json.readPower (mark :: (sign ++ digits ++ rest)) =
          readPowerDigits negative (digits ++ rest) := by
        simp only [Json.readPower, if_pos isMark]
        cases signed with
        | plus => rfl
        | minus => rfl
        | absent =>
            cases digits with
            | nil => exact absurd rfl isDigits.nonempty
            | cons first more =>
                have firstDigit := isDigits.all first List.mem_cons_self
                have notPlus : first ≠ '+' := by
                  rintro rfl
                  cases firstDigit
                have notMinus : first ≠ '-' := by
                  rintro rfl
                  cases firstDigit
                simp [notPlus, notMinus]
      rw [List.cons_append, signedRead, readPowerDigits, digitsRead]

theorem readFraction_append {fraction : Option (List Char)}
    (isDigits : ∀ digits ∈ fraction, IsDigits digits) (ends : endsDigits rest = true)
    (noPoint : rest.head? ≠ some '.') :
    readFraction (fractionText fraction ++ rest) = .ok (fraction, rest) := by
  cases fraction with
  | none =>
      show readFraction rest = _
      unfold readFraction
      split
      · exact absurd rfl noPoint
      · rfl
  | some digits => simp [fractionText, readFraction, readDigits_append (isDigits digits rfl) ends]

theorem SpellsPower.noPoint (spelled : SpellsPower text power) (ends : endsNumber rest = true) :
    (text ++ rest).head? ≠ some '.' := by
  cases spelled with
  | absent =>
      cases rest with
      | nil => simp
      | cons next tail =>
          intro point
          cases point
          cases ends
  | present isMark _ _ => rcases isMark with rfl | rfl <;> simp

end Parts

namespace NumberLiteral

/-- The text of a literal. -/
def text (literal : NumberLiteral) : List Char :=
  (if literal.negative then ['-'] else []) ++
    (literal.whole ++ (fractionText literal.fraction ++ powerText literal.power))

/-- The literals that the grammar admits. -/
structure WellFormed (literal : NumberLiteral) : Prop where
  whole : IsDigits literal.whole
  leading : literal.whole.head? = some '0' → literal.whole.length = 1
  fraction : ∀ digits ∈ literal.fraction, IsDigits digits
  power : ∀ power ∈ literal.power, IsDigits power.digits

/-- A spelling of a literal, whose power of ten may be spelled in several ways. -/
inductive Spells : List Char → NumberLiteral → Prop where
  | parts {literal : NumberLiteral} {power : List Char} (wellFormed : literal.WellFormed)
      (spelled : SpellsPower power literal.power) :
      Spells ((if literal.negative then ['-'] else []) ++
        (literal.whole ++ (fractionText literal.fraction ++ power))) literal

variable {literal : NumberLiteral} {text power rest : List Char}

theorem spells_text (wellFormed : literal.WellFormed) : Spells literal.text literal :=
  .parts wellFormed (spellsPower_powerText wellFormed.power)

theorem readUnsigned_append (negative : Bool) (wellFormed : literal.WellFormed)
    (spelled : SpellsPower power literal.power) (ends : endsNumber rest = true) :
    readUnsigned negative
        (literal.whole ++ (fractionText literal.fraction ++ (power ++ rest))) =
      .ok ({ literal with negative }, rest) := by
  have endsFraction := spelled.endsDigits ends
  have digitsRead :=
    readDigits_append wellFormed.whole (endsDigits_fractionText literal.fraction endsFraction)
  have wholeRead : readWhole
      (literal.whole ++ (fractionText literal.fraction ++ (power ++ rest))) =
        .ok (literal.whole, fractionText literal.fraction ++ (power ++ rest)) := by
    unfold readWhole
    rw [digitsRead]
    split
    next second tail after leadingZero =>
      have length := wellFormed.leading
      simp only [Except.ok.injEq, Prod.mk.injEq] at leadingZero
      rw [leadingZero.1] at length
      simp at length
    · rfl
  unfold readUnsigned
  rw [wholeRead]
  dsimp only
  rw [readFraction_append wellFormed.fraction endsFraction (spelled.noPoint ends)]
  dsimp only
  rw [spelled.readPower ends]

/-- A spelled literal is read as that literal, and what follows it is left. -/
theorem Spells.readLiteral (spelled : Spells text literal) (ends : endsNumber rest = true) :
    readLiteral (text ++ rest) = .ok (literal, rest) := by
  cases spelled with
  | @parts _ power wellFormed spelledPower =>
  have read := fun negative => readUnsigned_append negative wellFormed spelledPower ends
  simp only [List.append_assoc]
  cases sign : literal.negative with
  | true =>
      have same : { literal with negative := true } = literal := by rw [← sign]
      simp only [if_true, List.singleton_append, Json.readLiteral, read, same]
  | false =>
      have same : { literal with negative := false } = literal := by rw [← sign]
      simp only [Bool.false_eq_true, if_false, List.nil_append]
      unfold Json.readLiteral
      split
      next tail minus =>
        have digits := wellFormed.whole
        cases whole : literal.whole with
        | nil => exact absurd whole digits.nonempty
        | cons first more =>
            rw [whole] at minus digits
            have firstDigit := digits.all first (List.mem_cons_self ..)
            cases minus
            cases firstDigit
      · rw [read, same]

end NumberLiteral

/-! ## The literal of a written size -/

theorem le_ofDigitChars (digits : List Char) (significand : Nat) :
    significand ≤ Nat.ofDigitChars 10 digits significand := by
  rw [Nat.ofDigitChars_eq_ofDigitChars_zero]
  exact Nat.le_trans (Nat.le_mul_of_pos_left _ (Nat.pow_pos (by decide))) (Nat.le_add_right _ _)

/-- Digits whose number fits are all taken. -/
theorem accumulate_eq {significand : Nat} {digits : List Char}
    (fits : Nat.ofDigitChars 10 digits significand ≤ naturalLimit) :
    accumulate significand digits = (Nat.ofDigitChars 10 digits significand, 0) := by
  induction digits generalizing significand with
  | nil => simp [accumulate]
  | cons digit rest inductionHypothesis =>
      rw [Nat.ofDigitChars_cons] at fits ⊢
      unfold accumulate
      rw [if_pos ((le_ofDigitChars rest _).trans fits), inductionHypothesis fits]

/-- Zeros before digits do not count. -/
theorem ofDigitChars_zerosBefore (zeros : Nat) (digits : List Char) :
    Nat.ofDigitChars 10 (['0'] ++ (List.replicate zeros '0' ++ digits)) 0 =
      Nat.ofDigitChars 10 digits 0 := by
  simp [Nat.ofDigitChars_cons, Nat.ofDigitChars_append]

/-- Each zero behind digits multiplies by ten. -/
theorem ofDigitChars_zerosBehind (zeros : Nat) (digits : List Char) :
    Nat.ofDigitChars 10 ((digits ++ List.replicate zeros '0') ++ ['0']) 0 =
      Nat.ofDigitChars 10 digits 0 * 10 ^ (zeros + 1) := by
  simp only [Nat.ofDigitChars_append, Nat.ofDigitChars_replicate_zero, Nat.ofDigitChars_cons,
    Nat.ofDigitChars_nil, Nat.sub_self, Nat.add_zero, Nat.pow_succ]
  ring

namespace NumberLiteral

variable {literal : NumberLiteral} {significand : Nat}

/-- With all digits taken, the fraction's length is what a point shifts by. -/
theorem accumulated_eq (value : Nat.ofDigitChars 10 (literal.whole ++ literal.fraction.getD []) 0 =
      significand) (fits : significand ≤ naturalLimit) :
    accumulate 0 literal.whole = (Nat.ofDigitChars 10 literal.whole 0, 0) ∧
      accumulate (Nat.ofDigitChars 10 literal.whole 0) (literal.fraction.getD []) =
        (significand, 0) := by
  rw [Nat.ofDigitChars_append] at value
  have wholeFits := (le_ofDigitChars (literal.fraction.getD []) _).trans (value ▸ fits)
  exact ⟨accumulate_eq wholeFits, value ▸ accumulate_eq (value ▸ fits)⟩

theorem size?_positional
    (value : Nat.ofDigitChars 10 (literal.whole ++ literal.fraction.getD []) 0 = significand)
    (fits : significand ≤ naturalLimit) (noPower : literal.power = none) :
    literal.size? = scale (.ofNat significand) (-((literal.fraction.getD []).length : Int)) := by
  obtain ⟨wholeTaken, fractionTaken⟩ := accumulated_eq value fits
  simp [size?, wholeTaken, fractionTaken, noPower]

theorem size?_scientific {power : PowerLiteral} {written : Int}
    (value : Nat.ofDigitChars 10 (literal.whole ++ literal.fraction.getD []) 0 = significand)
    (fits : significand ≤ naturalLimit) (hasPower : literal.power = some power)
    (powerValue : power.value? = some written) :
    literal.size? = scale (.ofNat significand)
      (clampPower (-((literal.fraction.getD []).length : Int) + written)) := by
  obtain ⟨wholeTaken, fractionTaken⟩ := accumulated_eq value fits
  simp [size?, wholeTaken, fractionTaken, hasPower, powerValue]

end NumberLiteral

/-- The power of ten of a scientific form. -/
def PowerLiteral.ofInt (power : Int) : PowerLiteral :=
  ⟨power < 0, Nat.toDigits 10 power.natAbs⟩

theorem PowerLiteral.value?_ofInt {power : Int} (bound : power.natAbs ≤ powerLimit) :
    (PowerLiteral.ofInt power).value? = some power := by
  unfold value? ofInt Decimal.digitsValue
  simp only [Nat.ofDigitChars_ten_toDigits, if_pos bound, decide_eq_true_eq, Option.some.injEq]
  split <;> omega

/-- The fraction of a scientific form, which is left out where it has no digits. -/
theorem getD_nonemptyFraction (digits : List Char) :
    (if digits.isEmpty then none else some digits).getD [] = digits := by
  split
  next isEmpty => exact (List.isEmpty_iff.mp isEmpty).symm
  · rfl

theorem fractionText_nonemptyFraction (digits : List Char) :
    fractionText (if digits.isEmpty then none else some digits) =
      if digits.isEmpty then [] else Decimal.point :: digits := by
  split <;> rfl

/-- The literal as which digits with a point at a given place are written. -/
def writtenLiteral (negative : Bool) (digits : List Char) (place : Int) : NumberLiteral :=
  if -4 ≤ place ∧ place ≤ 16 then
    if place ≤ 0 then
      ⟨negative, ['0'], some (List.replicate (-place).toNat '0' ++ digits), none⟩
    else if (digits.length : Int) ≤ place then
      ⟨negative, digits ++ List.replicate (place - digits.length).toNat '0', some ['0'], none⟩
    else
      ⟨negative, digits.take place.toNat, some (digits.drop place.toNat), none⟩
  else
    ⟨negative, digits.take 1, if (digits.drop 1).isEmpty then none else some (digits.drop 1),
      some (.ofInt (place - 1))⟩

theorem writtenLiteral_text (negative : Bool) (digits : List Char) (place : Int) :
    (writtenLiteral negative digits place).text =
      (if negative then ['-'] else []) ++
        (if -4 ≤ place ∧ place ≤ 16 then NumeralStyle.positional digits place
          else NumeralStyle.scientific true digits place) := by
  unfold writtenLiteral NumberLiteral.text
  by_cases shown : -4 ≤ place ∧ place ≤ 16
  · rw [if_pos shown, if_pos shown]
    unfold NumeralStyle.positional
    by_cases small : place ≤ 0
    · simp [small, fractionText, powerText, Decimal.point]
    · by_cases padded : (digits.length : Int) ≤ place
      · simp [small, padded, fractionText, powerText, Decimal.point]
      · simp [small, padded, fractionText, powerText, Decimal.point]
  · rw [if_neg shown, if_neg shown]
    have tailEq := fractionText_nonemptyFraction (digits.drop 1)
    have powerEq : powerText (some (.ofInt (place - 1))) =
        NumeralStyle.powerText true (place - 1) := by
      unfold powerText NumeralStyle.powerText PowerLiteral.ofInt
      by_cases downward : place - 1 < 0 <;> simp [downward]
    dsimp only
    rw [tailEq, powerEq]
    simp only [NumeralStyle.scientific, List.append_assoc]

theorem writtenLiteral_wellFormed (negative : Bool) {coefficient : Nat} (place : Int)
    (positive : 0 < coefficient) :
    (writtenLiteral negative (Nat.toDigits 10 coefficient) place).WellFormed := by
  have isDigits := isDigits_toDigits coefficient
  have leading := toDigits_head_ne_zero positive
  generalize Nat.toDigits 10 coefficient = digits at *
  have takenLeading : ∀ count : Nat, 0 < count → (digits.take count).head? ≠ some '0' := by
    intro count positive
    rw [List.head?_take, if_neg (Nat.pos_iff_ne_zero.mp positive)]
    exact leading
  unfold writtenLiteral
  split_ifs with shown small padded single
  · refine ⟨isDigits_zero, fun _ => rfl, ?_, by simp⟩
    rintro _ ⟨⟩
    exact (isDigits.append (isDigit_of_mem_zeros _)).2
  · refine ⟨(isDigits.append (isDigit_of_mem_zeros _)).1, fun isZero => absurd isZero ?_, ?_,
      by simp⟩
    · have headed := takenLeading digits.length (List.length_pos_iff.mpr isDigits.nonempty)
      rw [List.take_length] at headed
      rw [List.head?_append_of_ne_nil _ isDigits.nonempty]
      exact headed
    · rintro _ ⟨⟩
      exact isDigits_zero
  · refine ⟨isDigits.take (by omega), fun isZero => absurd isZero (takenLeading _ (by omega)), ?_,
      by simp⟩
    rintro _ ⟨⟩
    exact isDigits.drop (by simp only [ne_eq, List.drop_eq_nil_iff]; omega)
  · refine ⟨isDigits.take Nat.one_pos, fun isZero => absurd isZero (takenLeading _ Nat.one_pos),
      by simp, ?_⟩
    rintro _ ⟨⟩
    exact isDigits_toDigits _
  · refine ⟨isDigits.take Nat.one_pos, fun isZero => absurd isZero (takenLeading _ Nat.one_pos), ?_,
      ?_⟩
    · rintro _ ⟨⟩
      exact isDigits.drop (by simpa only [List.isEmpty_iff] using single)
    · rintro _ ⟨⟩
      exact isDigits_toDigits _

section Layouts

variable (negative : Bool) {digits : List Char} {significand : Nat}

theorem size?_behindPoint (value : Nat.ofDigitChars 10 digits 0 = significand)
    (fits : significand ≤ naturalLimit) {place : Int} (small : place ≤ 0) :
    NumberLiteral.size?
        ⟨negative, ['0'], some (List.replicate (-place).toNat '0' ++ digits), none⟩ =
      scale (.ofNat significand) (place - digits.length) := by
  have written : Nat.ofDigitChars 10
      (['0'] ++ (List.replicate (-place).toNat '0' ++ digits)) 0 = significand := by
    rw [ofDigitChars_zerosBefore, value]
  have shift : -((List.replicate (-place).toNat '0' ++ digits).length : Int) =
      place - digits.length := by
    rw [List.length_append, List.length_replicate]
    omega
  rw [NumberLiteral.size?_positional written fits rfl, Option.getD_some, shift]

theorem size?_padded (value : Nat.ofDigitChars 10 digits 0 = significand) (zeros : Nat)
    (fits : significand * 10 ^ (zeros + 1) ≤ naturalLimit) :
    NumberLiteral.size? ⟨negative, digits ++ List.replicate zeros '0', some ['0'], none⟩ =
      scale (.ofNat (significand * 10 ^ (zeros + 1))) (-1) := by
  have written : Nat.ofDigitChars 10 ((digits ++ List.replicate zeros '0') ++ ['0']) 0 =
      significand * 10 ^ (zeros + 1) := by
    rw [ofDigitChars_zerosBehind, value]
  exact NumberLiteral.size?_positional written fits rfl

theorem size?_aroundPoint (value : Nat.ofDigitChars 10 digits 0 = significand)
    (fits : significand ≤ naturalLimit) {place : Nat} (inside : place ≤ digits.length) :
    NumberLiteral.size? ⟨negative, digits.take place, some (digits.drop place), none⟩ =
      scale (.ofNat significand) (place - digits.length) := by
  have written : Nat.ofDigitChars 10 (digits.take place ++ digits.drop place) 0 = significand := by
    rw [List.take_append_drop]
    exact value
  have shift : -((digits.drop place).length : Int) = place - digits.length := by
    rw [List.length_drop]
    omega
  rw [NumberLiteral.size?_positional written fits rfl, Option.getD_some, shift]

theorem size?_withPower (value : Nat.ofDigitChars 10 digits 0 = significand)
    (fits : significand ≤ naturalLimit) (nonempty : digits ≠ []) {power : Int}
    (bound : power.natAbs + digits.length ≤ powerLimit) :
    NumberLiteral.size?
        ⟨negative, digits.take 1, if (digits.drop 1).isEmpty then none else some (digits.drop 1),
          some (.ofInt power)⟩ =
      scale (.ofNat significand) (power + 1 - digits.length) := by
  have fractionEq := getD_nonemptyFraction (digits.drop 1)
  have written : Nat.ofDigitChars 10 (digits.take 1 ++
      (if (digits.drop 1).isEmpty then none else some (digits.drop 1)).getD []) 0 =
        significand := by
    rw [fractionEq, List.take_append_drop]
    exact value
  have lengthPositive := List.length_pos_iff.mpr nonempty
  have shift : clampPower (-((digits.drop 1).length : Int) + power) =
      power + 1 - digits.length := by
    unfold powerLimit at bound
    unfold clampPower powerLimit
    rw [List.length_drop]
    omega
  have powerValue := PowerLiteral.value?_ofInt (show power.natAbs ≤ powerLimit by omega)
  rw [NumberLiteral.size?_scientific written fits rfl powerValue]
  dsimp only
  rw [fractionEq, shift]

end Layouts

/-- The size that a reader makes of digits and their power of ten: the rounded digits, scaled; those
of a whole number below `10 ^ 16` are written out with a zero behind the point, and the reader
divides by ten again. -/
def rescaled? (decimal : Decimal) : Option Binary64 :=
  if 0 ≤ decimal.exponent ∧
      (Nat.toDigits 10 decimal.coefficient).length + decimal.exponent ≤ 16 then
    scale (.ofNat (decimal.coefficient * 10 ^ (decimal.exponent.toNat + 1))) (-1)
  else
    scale (.ofNat decimal.coefficient) decimal.exponent

/-- The digits of a whole number that is written out, with a zero behind them. -/
theorem written_le (decimal : Decimal) (whole : 0 ≤ decimal.exponent)
    (small : (Nat.toDigits 10 decimal.coefficient).length + decimal.exponent ≤ 16) :
    decimal.coefficient * 10 ^ (decimal.exponent.toNat + 1) ≤ 10 ^ 17 := by
  have below : decimal.coefficient < 10 ^ (Nat.toDigits 10 decimal.coefficient).length :=
    (Nat.length_toDigits_le_iff (by decide) Nat.length_toDigits_pos).mp (Nat.le_refl _)
  generalize (Nat.toDigits 10 decimal.coefficient).length = length at *
  calc decimal.coefficient * 10 ^ (decimal.exponent.toNat + 1)
      ≤ 10 ^ length * 10 ^ (decimal.exponent.toNat + 1) := Nat.mul_le_mul_right _ below.le
    _ = 10 ^ (length + (decimal.exponent.toNat + 1)) := (Nat.pow_add ..).symm
    _ ≤ 10 ^ 17 := Nat.pow_le_pow_right (by decide) (by omega)

/-- Whatever the layout, a literal of digits denotes the rescaled digits. -/
theorem writtenLiteral_size? (negative : Bool) {decimal : Decimal}
    (bound : decimal.coefficient ≤ digitsLimit)
    (powers : -1074 ≤ decimal.exponent ∧ decimal.exponent ≤ 308) :
    (writtenLiteral negative (Nat.toDigits 10 decimal.coefficient)
      ((Nat.toDigits 10 decimal.coefficient).length + decimal.exponent)).size? =
        rescaled? decimal := by
  have value := Nat.ofDigitChars_ten_toDigits (n := decimal.coefficient)
  have nonempty := (isDigits_toDigits decimal.coefficient).nonempty
  have lengthPositive := List.length_pos_iff.mpr nonempty
  have lengthBound : (Nat.toDigits 10 decimal.coefficient).length ≤ 18 :=
    (Nat.length_toDigits_le_iff (by decide) (by decide)).mpr
      (Nat.lt_of_le_of_lt bound (by decide))
  have fits : decimal.coefficient ≤ naturalLimit := bound.trans (by decide)
  have wholeBound := written_le decimal
  unfold rescaled?
  generalize Nat.toDigits 10 decimal.coefficient = digits at *
  obtain ⟨place, placeEq⟩ : ∃ place, digits.length + decimal.exponent = place := ⟨_, rfl⟩
  have exponentEq : place - digits.length = decimal.exponent := by omega
  rw [placeEq]
  unfold writtenLiteral
  split
  next shown =>
    split
    next small =>
      rw [size?_behindPoint negative value fits small, exponentEq, if_neg (by omega)]
    next large =>
      split
      next padded =>
        have fitsWhole := (wholeBound (by omega) (by omega)).trans
          (show 10 ^ 17 ≤ naturalLimit by decide)
        rw [exponentEq, size?_padded negative value _ fitsWhole, if_pos (by omega)]
      next inside =>
        have placed : ((place.toNat : Nat) : Int) = place := by omega
        rw [size?_aroundPoint negative value fits (by omega), placed, exponentEq,
          if_neg (by omega)]
  next hidden =>
    have powerBound : (place - 1).natAbs + digits.length ≤ powerLimit := by
      unfold powerLimit
      omega
    rw [size?_withPower negative value fits nonempty powerBound, Int.sub_add_cancel, exponentEq,
      if_neg (by omega)]

/-- Digits stay in the finite range when they are rescaled if they do when they are scaled. -/
theorem rescaled?_finite {decimal : Decimal}
    (scaled : ∃ size, scale (.ofNat decimal.coefficient) decimal.exponent =
      some (.finite false size)) :
    ∃ size, rescaled? decimal = some (.finite false size) := by
  unfold rescaled?
  split
  next whole =>
    obtain ⟨start, startEq⟩ :=
      Binary64.isFinite_ofNat (show 17 ≤ 308 by decide) (written_le decimal whole.1 whole.2)
    rw [startEq]
    exact scale_downward false start (by decide)
  next => exact scaled

/-- A size other than zero is written as its literal. -/
theorem writeNumber_eq (negative : Bool) {magnitude : Magnitude}
    (nonzero : magnitude.significand ≠ 0) :
    let digits := Nat.toDigits 10 (magnitude.shortest .toEven).coefficient
    writeNumber (.finite negative magnitude) =
      (writtenLiteral negative digits
        (digits.length + (magnitude.shortest .toEven).exponent)).text := by
  have notZero : ¬magnitude.isZero = true := magnitude.isZero_iff.not.mpr nonzero
  intro digits
  rw [writtenLiteral_text]
  show _ ++ numberStyle.unsigned magnitude = _
  unfold NumeralStyle.unsigned
  rw [if_neg notZero]
  rfl

theorem writtenLiteral_negative (negative : Bool) (digits : List Char) (place : Int) :
    (writtenLiteral negative digits place).negative = negative := by
  unfold writtenLiteral
  split_ifs <;> rfl

theorem writtenLiteral_isFloat (negative : Bool) (digits : List Char) (place : Int) :
    (writtenLiteral negative digits place).fraction.isSome ∨
      (writtenLiteral negative digits place).power.isSome := by
  unfold writtenLiteral
  split_ifs <;> simp

/-- A literal with a fraction or a power gives its size with its sign. -/
theorem NumberLiteral.number_of_size? {literal : NumberLiteral} {size : Magnitude}
    (isFloat : literal.fraction.isSome ∨ literal.power.isSome)
    (sized : literal.size? = some (.finite false size)) :
    ∃ number, literal.number = .ok number ∧
      number.toBinary64 = .finite literal.negative size := by
  have notWhole : literal.whole? = none := by
    unfold whole?
    exact if_pos (isFloat.elim .inl fun isSome => .inr (.inl isSome))
  refine ⟨_, by simp only [number, notWhole, sized]; rfl, ?_⟩
  cases literal.negative <;> rfl

/-! ## Reading what was written -/

/-- A finite value is written as the text of a literal whose number has its sign and the rescaled
size. -/
theorem writeNumber_literal (negative : Bool) (magnitude : Magnitude) :
    ∃ (literal : NumberLiteral) (number : Number) (size : Magnitude),
      writeNumber (.finite negative magnitude) = literal.text ∧ literal.WellFormed ∧
        literal.number = .ok number ∧ number.toBinary64 = .finite negative size ∧
        rescaled? (magnitude.shortest .toEven) = some (.finite false size) := by
  by_cases isZero : magnitude.significand = 0
  · have zeroWritten : magnitude.isZero = true := magnitude.isZero_iff.mpr isZero
    have shortestEq : magnitude.shortest .toEven = ⟨0, 0⟩ := if_pos zeroWritten
    obtain ⟨zero, zeroEq⟩ := Binary64.isFinite_ofNat (Nat.zero_le 308) (Nat.zero_le 1)
    obtain ⟨size, scaled⟩ := scale_downward false zero (show (-1 : Int) < 0 by decide)
    have rescaledEq : rescaled? ⟨0, 0⟩ = some (.finite false size) := by
      rw [← scaled, ← zeroEq]
      rfl
    have sized : NumberLiteral.size? ⟨negative, ['0'], some ['0'], none⟩ =
        some (.finite false size) := by
      rw [← scaled, ← zeroEq]
      rfl
    obtain ⟨number, numberEq, valueEq⟩ := NumberLiteral.number_of_size? (.inl rfl) sized
    refine ⟨⟨negative, ['0'], some ['0'], none⟩, number, size, ?_, ?_, numberEq, valueEq,
      shortestEq ▸ rescaledEq⟩
    · have zeroText : numberStyle.unsigned magnitude = ['0', '.', '0'] := if_pos zeroWritten
      show _ ++ numberStyle.unsigned magnitude = _
      rw [zeroText]
      rfl
    · refine ⟨isDigits_zero, fun _ => rfl, ?_, by simp⟩
      rintro _ ⟨⟩
      exact isDigits_zero
  · obtain ⟨positive, digitsBound, lowest, highest, _⟩ :=
      Magnitude.shortest_bounds .toEven isZero
    obtain ⟨significandBound, _, _⟩ := magnitude.canonical
    have bound : (magnitude.shortest .toEven).coefficient ≤ digitsLimit := by
      unfold digitsLimit
      omega
    obtain ⟨size, rescaledEq⟩ := rescaled?_finite (scale_shortest isZero)
    have sized := (writtenLiteral_size? negative bound ⟨lowest, highest⟩).trans rescaledEq
    obtain ⟨number, numberEq, valueEq⟩ :=
      NumberLiteral.number_of_size? (writtenLiteral_isFloat negative _ _) sized
    rw [writtenLiteral_negative] at valueEq
    exact ⟨_, number, size, writeNumber_eq negative isZero,
      writtenLiteral_wellFormed negative _ positive, numberEq, valueEq, rescaledEq⟩

/-- A spelled literal is read as the number that it denotes, or refused as it is. -/
theorem NumberLiteral.Spells.readNumber {literal : NumberLiteral} {text rest : List Char}
    (spelled : literal.Spells text) (ends : endsNumber rest = true) :
    readNumber (text ++ rest) = literal.number.map fun number => (number, rest) := by
  unfold Json.readNumber
  rw [spelled.readLiteral ends]
  dsimp only
  cases literal.number <;> rfl

end Keypad.Json
