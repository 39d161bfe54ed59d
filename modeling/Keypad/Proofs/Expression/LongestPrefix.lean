import Keypad.Proofs.Expression.LeftFold

/-!
Contract: a sequence of items in any order evaluates as the longest alternating sequence that begins
it.

Owns:
- operators each with a further operand, and where a sequence of items goes on with one;
- the longest alternating sequence at the beginning of items, in both descriptions: none is longer,
  and what follows it does not begin with an operator and an operand;
- that it decides the value, and that what follows it does not.

Does not own: the value of an alternating sequence.
-/

namespace Keypad

theorem Binary64.isZero_iff (value : Binary64) :
    value.isZero = true ↔ value = zero ∨ value = -zero := by
  constructor
  · intro isZero
    cases value with
    | nan => cases isZero
    | infinite negative => cases isZero
    | finite negative magnitude =>
        obtain ⟨significand, exponent, canonical⟩ := magnitude
        have significandZero : significand = 0 := eq_of_beq isZero
        have exponentZero : exponent = 0 := by
          unfold CanonicalParts at canonical
          omega
        subst significandZero exponentZero
        cases negative with
        | false => exact .inl rfl
        | true => exact .inr rfl
  · rintro (rfl | rfl) <;> rfl

theorem Operator.dividesByZero_iff (operation : Operator) (right : Binary64) :
    operation.dividesByZero right = true ↔
      operation = .divide ∧ (right = .zero ∨ right = -.zero) := by
  rw [dividesByZero, Bool.and_eq_true, decide_eq_true_iff, Binary64.isZero_iff]

namespace Expression

/-- Operators, each with a further operand. -/
def continuing (rest : List (Operator × Binary64)) : List Item :=
  rest.flatMap fun entry => [.operator entry.1, .number entry.2]

/-- Whether items go on with an operator and an operand. -/
def continues : List Item → Bool
  | .operator _ :: .number _ :: _ => true
  | _ => false

/-- The operators with their operands that begin some items. -/
def leading : List Item → List (Operator × Binary64)
  | .operator operation :: .number operand :: items => (operation, operand) :: leading items
  | _ => []

/-- An alternating sequence begins the items, and no alternating sequence that does is longer. -/
structure IsLongest (items : List Item) (first : Binary64) (rest : List (Operator × Binary64)) :
    Prop where
  begins : alternating first rest <+: items
  longest : ∀ otherFirst other, alternating otherFirst other <+: items → other.length ≤ rest.length

section Continuing

variable {rest other : List (Operator × Binary64)} {items later : List Item}

theorem evaluateFrom_of_not_continues (running : Binary64) (ends : continues later = false) :
    evaluateFrom running later = .ok running := by
  unfold evaluateFrom
  split
  · cases ends
  · rfl

/-- Evaluation goes on from the value of the operators and operands before. -/
theorem evaluateFrom_append (running : Binary64) (rest : List (Operator × Binary64))
    (later : List Item) :
    evaluateFrom running (continuing rest ++ later) =
      (evaluateFrom running (continuing rest)).bind fun value => evaluateFrom value later := by
  induction rest generalizing running with
  | nil => rfl
  | cons entry rest inductionHypothesis =>
      show evaluateFrom running
          (.operator entry.1 :: .number entry.2 :: (continuing rest ++ later)) =
        (evaluateFrom running (.operator entry.1 :: .number entry.2 :: continuing rest)).bind _
      rw [evaluateFrom, evaluateFrom]
      cases entry.1.calculate running entry.2 with
      | ok result => exact inductionHypothesis result
      | error fault => rfl

theorem evaluateFrom_append_of_not_continues (running : Binary64)
    (rest : List (Operator × Binary64)) (ends : continues later = false) :
    evaluateFrom running (continuing rest ++ later) = evaluateFrom running (continuing rest) := by
  rw [evaluateFrom_append]
  cases evaluateFrom running (continuing rest) with
  | ok value => exact evaluateFrom_of_not_continues value ends
  | error fault => rfl

theorem exists_later (items : List Item) :
    ∃ later, continues later = false ∧ items = continuing (leading items) ++ later := by
  fun_induction leading items with
  | case1 operation operand items inductionHypothesis =>
      obtain ⟨later, ends, parts⟩ := inductionHypothesis
      refine ⟨later, ends, ?_⟩
      show _ = .operator operation :: .number operand :: (continuing (leading items) ++ later)
      rw [← parts]
  | case2 items broken =>
      refine ⟨items, ?_, rfl⟩
      unfold continues
      split
      next operation operand more => exact (broken operation operand more rfl).elim
      · rfl

/-- Operators and operands that begin some items stay within those before the place where the items
do not go on. -/
theorem isPrefix_of_continuing (ends : continues later = false)
    (begins : continuing other <+: continuing rest ++ later) : other <+: rest := by
  induction other generalizing rest with
  | nil => exact List.nil_prefix
  | cons entry other inductionHypothesis =>
      cases rest with
      | nil =>
          obtain ⟨tail, whole⟩ := begins
          have goesOn :
              .operator entry.1 :: .number entry.2 :: (continuing other ++ tail) = later := whole
          rw [← goesOn] at ends
          cases ends
      | cons next rest =>
          obtain ⟨tail, whole⟩ := begins
          have same : Item.operator entry.1 :: .number entry.2 :: (continuing other ++ tail) =
              .operator next.1 :: .number next.2 :: (continuing rest ++ later) := whole
          simp only [List.cons.injEq, Item.operator.injEq, Item.number.injEq] at same
          obtain ⟨operation, operand, remaining⟩ := same
          rw [Prod.ext operation operand, List.prefix_cons_inj]
          exact inductionHypothesis ⟨tail, remaining⟩

end Continuing

section Longest

variable {items later : List Item} {first otherFirst : Binary64}
  {rest other : List (Operator × Binary64)}

/-- The longest sequence is the one behind which the items do not go on. -/
theorem isLongest_iff :
    IsLongest items first rest ↔
      ∃ later, continues later = false ∧ items = alternating first rest ++ later := by
  constructor
  · rintro ⟨⟨later, parts⟩, longest⟩
    refine ⟨later, ?_, parts.symm⟩
    rw [← Bool.not_eq_true]
    intro goesOn
    unfold continues at goesOn
    split at goesOn
    next operation operand more =>
      have longer : alternating first (rest ++ [(operation, operand)]) <+: items := by
        refine ⟨more, ?_⟩
        rw [← parts]
        simp [alternating]
      have bound := longest _ _ longer
      rw [List.length_append, List.length_singleton] at bound
      omega
    · cases goesOn
  · rintro ⟨later, ends, rfl⟩
    refine ⟨List.prefix_append _ _, fun otherFirst other begins => ?_⟩
    obtain ⟨_, withinRest⟩ := List.cons_prefix_cons.mp begins
    exact (isPrefix_of_continuing ends withinRest).length_le

theorem IsLongest.unique (leftLongest : IsLongest items first rest)
    (rightLongest : IsLongest items otherFirst other) : otherFirst = first ∧ other = rest := by
  obtain ⟨later, ends, rfl⟩ := isLongest_iff.mp leftLongest
  obtain ⟨sameFirst, withinRest⟩ := List.cons_prefix_cons.mp rightLongest.begins
  refine ⟨Item.number.inj sameFirst, (isPrefix_of_continuing ends withinRest).eq_of_length_le ?_⟩
  exact rightLongest.longest _ _ leftLongest.begins

theorem isLongest_leading (first : Binary64) (items : List Item) :
    IsLongest (.number first :: items) first (leading items) := by
  obtain ⟨later, ends, parts⟩ := exists_later items
  exact isLongest_iff.mpr ⟨later, ends, congrArg (List.cons (.number first)) parts⟩

/-- Items have the value of the longest sequence that begins them. -/
theorem IsLongest.evaluate_eq (isLongest : IsLongest items first rest) :
    evaluate ⟨items⟩ = evaluate ⟨alternating first rest⟩ := by
  obtain ⟨later, ends, rfl⟩ := isLongest_iff.mp isLongest
  exact evaluateFrom_append_of_not_continues first rest ends

end Longest

theorem evaluate_of_head?_ne {items : List Item}
    (noNumber : ∀ value, items.head? ≠ some (.number value)) :
    evaluate ⟨items⟩ = .ok .zero := by
  unfold evaluate
  split
  next value tail isNumber =>
    have headed := noNumber value
    dsimp only at isNumber
    rw [isNumber] at headed
    exact absurd rfl headed
  · rfl

/-- Items in any order: they are worth zero when the first is not a number. Otherwise exactly one
alternating sequence is the longest that begins them; they are worth its left fold, unless it
divides by a zero of either sign, and so are all items with the same longest sequence, whatever
follows it. -/
theorem evaluate_longest (items : List Item) :
    ((∀ value, items.head? ≠ some (.number value)) → evaluate ⟨items⟩ = .ok .zero) ∧
      ∀ first tail, items = .number first :: tail →
        ∃ rest, IsLongest items first rest ∧
          (∀ otherFirst other, IsLongest items otherFirst other →
            otherFirst = first ∧ other = rest) ∧
          ((∃ entry ∈ rest, entry.1 = .divide ∧ (entry.2 = .zero ∨ entry.2 = -.zero)) →
            evaluate ⟨items⟩ = .error .dividedByZero) ∧
          ((∀ entry ∈ rest, ¬(entry.1 = .divide ∧ (entry.2 = .zero ∨ entry.2 = -.zero))) →
            evaluate ⟨items⟩ = .ok (leftFold first rest)) ∧
          ∀ others, IsLongest others first rest → evaluate ⟨others⟩ = evaluate ⟨items⟩ := by
  refine ⟨evaluate_of_head?_ne, ?_⟩
  rintro first tail rfl
  have isLongest := isLongest_leading first tail
  have value := isLongest.evaluate_eq
  rw [evaluate_alternating] at value
  refine ⟨leading tail, isLongest, fun _ _ => isLongest.unique, fun divides => ?_,
    fun divides => ?_, fun others othersLongest => ?_⟩
  · rw [value, if_pos]
    simpa only [List.any_eq_true, Operator.dividesByZero_iff] using divides
  · rw [value, if_neg]
    simpa only [List.any_eq_true, Operator.dividesByZero_iff, not_exists, not_and] using divides
  · rw [othersLongest.evaluate_eq, isLongest.evaluate_eq]

/-- Four plus two, two operators one after the other, and a zero behind them. -/
def brokenItems : List Item :=
  [.number (.ofNat 4), .operator .add, .number (.ofNat 2), .operator .divide, .operator .divide,
    .number .zero]

theorem evaluate_longest_broken :
    IsLongest brokenItems (.ofNat 4) [(.add, .ofNat 2)] ∧
      evaluate ⟨brokenItems⟩ = .ok (.ofNat 6) := by
  have begins : IsLongest brokenItems (.ofNat 4) [(.add, .ofNat 2)] :=
    isLongest_leading (.ofNat 4) brokenItems.tail
  obtain ⟨rest, _, unique, _, value, _⟩ := (evaluate_longest brokenItems).2 _ _ rfl
  obtain ⟨_, rfl⟩ := unique _ _ begins
  have total : leftFold (.ofNat 4) [(.add, .ofNat 2)] = .ofNat 6 := by decide +kernel
  refine ⟨begins, (value ?_).trans (congrArg Except.ok total)⟩
  simp

end Expression

end Keypad
