import Keypad.Proofs.Number.FreeForm

/-!
Contract: the display is read from exactly the texts of a grammar, and to the nearest value.

Owns:
- positional forms with a minus or none, and the numbers that they denote;
- the scan that admits a text: it walks over the characters and remembers whether it has seen a point
  and whether it has seen a digit;
- that the scan admits the texts of the grammar, and that the free form reads whatever it admits;
- that the display is read as the free form reads what the scan admits, to the nearest value.

Does not own: how values are shown.
-/

namespace Keypad

/-- A positional form with a minus before it or none. -/
structure SignedForm where
  negative : Bool
  form : PositionalForm

namespace SignedForm

def text (numeral : SignedForm) : List Char :=
  (if numeral.negative then ['-'] else []) ++ numeral.form.text

/-- The size of the number that the text denotes; its sign is apart, since zero has one too. -/
def size (numeral : SignedForm) : ℚ := numeral.form.size

end SignedForm

namespace NumberFormat

/-! ## The scan -/

/-- Walks over digits and at most one point. At the end, a digit must have been seen. -/
def scan (sawPoint sawDigit : Bool) : List Char → Bool
  | [] => sawDigit
  | character :: rest =>
      if character.isDigit then
        scan sawPoint true rest
      else if character = Decimal.point ∧ sawPoint = false then
        scan true sawDigit rest
      else
        false

/-- Whether the display is a number at all: a minus is passed over and the rest scanned. -/
def admits (display : String) : Bool :=
  match display.toList with
  | '-' :: unsigned => scan false false unsigned
  | unsigned => scan false false unsigned

theorem scan_digits (sawPoint sawDigit : Bool) {digits : List Char} (rest : List Char)
    (all : ∀ digit ∈ digits, digit.isDigit = true) :
    scan sawPoint sawDigit (digits ++ rest) = scan sawPoint (sawDigit || !digits.isEmpty) rest := by
  induction digits generalizing sawDigit with
  | nil => simp
  | cons digit digits inductionHypothesis =>
      rw [List.forall_mem_cons] at all
      rw [List.cons_append, scan, if_pos all.1, inductionHypothesis true all.2]
      simp

/-- Behind the point there may be digits only. -/
theorem scan_behind_point (sawDigit : Bool) (text : List Char) :
    scan true sawDigit text = (text.all Char.isDigit && (sawDigit || !text.isEmpty)) := by
  induction text generalizing sawDigit with
  | nil => simp [scan]
  | cons character rest inductionHypothesis =>
      rw [scan, inductionHypothesis]
      cases isDigit : character.isDigit <;> simp [isDigit]

/-- The scan admits what is read as a positional form. -/
theorem scan_eq_isSome (text : List Char) :
    scan false false text = (Decimal.ofPositional? text).isSome := by
  have all : ∀ digit ∈ text.takeWhile Char.isDigit, digit.isDigit = true :=
    fun _ member => List.mem_takeWhile_imp member
  have scanned := scan_digits false false (text.dropWhile Char.isDigit) all
  have stops := List.head?_dropWhile_not Char.isDigit text
  rw [List.takeWhile_append_dropWhile] at scanned
  rw [scanned]
  unfold Decimal.ofPositional?
  dsimp only
  generalize text.takeWhile Char.isDigit = whole at *
  cases rest : text.dropWhile Char.isDigit with
  | nil => cases whole <;> simp [scan]
  | cons separator fraction =>
      have notDigit : separator.isDigit = false := by simpa [rest] using stops
      rw [scan, notDigit, if_neg Bool.false_ne_true, scan_behind_point]
      rw [Bool.eq_iff_iff, Option.isSome_ite]
      by_cases isPoint : separator = Decimal.point
      · simp [isPoint, imp_iff_not_or]
      · simp [isPoint]

/-! ## The free form on what is admitted -/

theorem parse_signed {display : String} {numeral : SignedForm}
    (written : display.toList = numeral.text) :
    parse display = some (Binary64.ofSignedDecimal numeral.negative numeral.form.decimal) := by
  obtain ⟨negative, form⟩ := numeral
  rw [← String.ofList_toList (s := display), written]
  cases negative with
  | true =>
      refine (parse_minus form.text).trans ?_
      rw [form.ofPositional?_text]
      rfl
  | false =>
      have noMinus : form.text.head? ≠ some '-' := by
        intro isMinus
        have begins := form.digit_or_point '-' (List.mem_of_mem_head? isMinus)
        exact absurd begins (by decide)
      refine (parse_of_head?_ne noMinus).trans ?_
      rw [form.ofPositional?_text]
      rfl

theorem exists_of_parse {display : String} {value : Binary64} (read : parse display = some value) :
    ∃ numeral : SignedForm, display.toList = numeral.text := by
  unfold parse at read
  split at read
  next unsigned isMinus =>
    obtain ⟨decimal, decimalRead, _⟩ := Option.map_eq_some_iff.mp read
    obtain ⟨form, rfl⟩ := PositionalForm.exists_of_ofPositional? decimalRead
    exact ⟨⟨true, form⟩, isMinus⟩
  · obtain ⟨decimal, decimalRead, _⟩ := Option.map_eq_some_iff.mp read
    obtain ⟨form, textEq⟩ := PositionalForm.exists_of_ofPositional? decimalRead
    exact ⟨⟨false, form⟩, textEq⟩

theorem admits_minus (text : List Char) :
    admits (String.ofList ('-' :: text)) = scan false false text := by
  have characters : (String.ofList ('-' :: text)).toList = '-' :: text := String.toList_ofList
  simp only [admits, characters]

theorem admits_of_head?_ne {text : List Char} (noMinus : text.head? ≠ some '-') :
    admits (String.ofList text) = scan false false text := by
  unfold admits
  rw [String.toList_ofList]
  split
  next unsigned => exact absurd rfl noMinus
  · rfl

theorem admits_eq_isSome (display : String) : admits display = (parse display).isSome := by
  rw [← String.ofList_toList (s := display)]
  generalize display.toList = text
  by_cases begins : text.head? = some '-'
  · obtain ⟨unsigned, rfl⟩ := List.head?_eq_some_iff.mp begins
    rw [admits_minus, parse_minus, scan_eq_isSome, Option.isSome_map]
  · rw [admits_of_head?_ne begins, parse_of_head?_ne begins, scan_eq_isSome, Option.isSome_map]

theorem ofText?_signedForm {display : String} {numeral : SignedForm}
    (written : display.toList = numeral.text) :
    Binary64.ofText? display.toList = parse display := by
  rw [parse_signed written, written]
  exact Binary64.ofText?_form numeral.negative numeral.form

/-- The display is read as the free form of a number, if the scan admits it. -/
theorem parse_eq_ofText? (display : String) :
    parse display = if admits display then Binary64.ofText? display.toList else none := by
  rw [admits_eq_isSome]
  cases read : parse display with
  | none => rfl
  | some value =>
      obtain ⟨numeral, written⟩ := exists_of_parse read
      rw [ofText?_signedForm written, read]
      rfl

/-- The display can be read exactly when its text is that of a positional form with a minus before it
or none. It is then read as the value nearest to the number that the text denotes, whatever its
length; a zero keeps the sign that is written. Whether it can be read is decided by a scan, and what
the scan admits is always read in the free form of a number. -/
theorem parse_nearest_form (display : String) :
    ((∃ value, parse display = some value) ↔
      ∃ numeral : SignedForm, display.toList = numeral.text) ∧
    (∀ numeral : SignedForm, display.toList = numeral.text →
      ∃ value, parse display = some value ∧
        Binary64.IsNearest numeral.negative numeral.size value ∧
        (numeral.size = 0 → value = .finite numeral.negative .zero)) ∧
    (admits display = true → ∃ value, Binary64.ofText? display.toList = some value) ∧
    parse display = if admits display then Binary64.ofText? display.toList else none := by
  refine ⟨⟨?_, ?_⟩, ?_, ?_, parse_eq_ofText? display⟩
  · rintro ⟨value, read⟩
    exact exists_of_parse read
  · rintro ⟨numeral, written⟩
    exact ⟨_, parse_signed written⟩
  · intro numeral written
    have nearest := Binary64.isNearest_form numeral.negative numeral.form
    refine ⟨_, parse_signed written, nearest, fun isZero => nearest.unique ?_⟩
    rw [show numeral.form.size = 0 from isZero]
    exact Binary64.isNearest_zero numeral.negative
  · intro admitted
    rw [admits_eq_isSome, Option.isSome_iff_exists] at admitted
    obtain ⟨value, read⟩ := admitted
    obtain ⟨numeral, written⟩ := exists_of_parse read
    exact ⟨value, (ofText?_signedForm written).trans read⟩

/-- A minus, no digit before the point, and zeros behind it. -/
def minusZeroForm : SignedForm :=
  ⟨true, ⟨[], some ['0', '0'], by simp, by simp, by simp⟩⟩

theorem parse_nearest_form_minusZero :
    "-.00".toList = minusZeroForm.text ∧ minusZeroForm.size = 0 ∧ admits "-.00" = true ∧
      parse "-.00" = some (-Binary64.zero) ∧
      ∃ value, Binary64.ofText? "-.00".toList = some value := by
  have written : "-.00".toList = minusZeroForm.text := by decide
  have admitted : admits "-.00" = true := by decide
  have isZero : minusZeroForm.size = 0 := by
    have value : Decimal.digitsValue ['0', '0'] = 0 := by decide
    show (Decimal.digitsValue ['0', '0'] : ℚ) / 10 ^ 2 = 0
    rw [value, Nat.cast_zero, zero_div]
  obtain ⟨_, nearest, accepted, _⟩ := parse_nearest_form "-.00"
  obtain ⟨value, read, _, zeroValue⟩ := nearest minusZeroForm written
  exact ⟨written, isZero, admitted, read.trans (congrArg some (zeroValue isZero)),
    accepted admitted⟩

end NumberFormat

end Keypad
