import Keypad.Expression.Basic
import Keypad.Proofs.Number.WrittenForm

/-!
Contract: the text of an expression is read back, item by item.

Owns:
- what a token of such a text is read as: an operator's symbol, and any other token as a number;
- that no token is both, and that no token has a blank;
- that the tokens between the blanks are the items' texts;
- that different expressions have different texts.

Does not own: the spelling of numbers, rows of whole calculations.
-/

namespace Keypad

namespace Operator

/-- Only its own symbol is read as an operator. -/
theorem symbol_of_ofSymbol? {text : String} {operation : Operator}
    (read : ofSymbol? text = some operation) : text = operation.symbol := by
  unfold ofSymbol? at read
  split at read
  next character single =>
    have isCharacter : character = operation.character := by
      unfold ofCharacter? at read
      split at read
      all_goals cases read
      all_goals rfl
    rw [← String.toList_inj, single, isCharacter, symbol, String.toList_singleton]
  · cases read

/-- No symbol is a number; a sign needs digits behind it. -/
theorem ofText?_symbol (operation : Operator) :
    Binary64.ofText? operation.symbol.toList = none := by
  cases operation <;> decide +kernel

end Operator

namespace Item

/-- Reads one token: an operator's symbol, or the free form of a number. -/
def ofText? (token : String) : Option Item :=
  match Operator.ofSymbol? token with
  | some operation => some (.operator operation)
  | none => (Binary64.ofText? token.toList).map .number

theorem ofText?_text (item : Item) : ofText? item.text = some item := by
  unfold ofText?
  cases item with
  | operator operation => rw [text, Operator.ofSymbol?_symbol]
  | number value =>
      -- A text that is read as a number is no symbol, so the operators do not get in its way.
      have read := value.ofText?_rowText
      rw [text]
      cases symbol : Operator.ofSymbol? value.rowText with
      | none => rw [read, Option.map_some]
      | some operation =>
          rw [Operator.symbol_of_ofSymbol? symbol, operation.ofText?_symbol] at read
          cases read

theorem blank_not_mem_text (item : Item) : ' ' ∉ item.text.toList := by
  cases item with
  | number value => exact value.blank_not_mem_rowText
  | operator operation => cases operation <;> decide

end Item

namespace Expression

/-- The parts of a text between its blanks. -/
def tokens (text : String) : List String := (text.split ' ').toList.map String.Slice.copy

/-- Reads a text token by token. -/
def ofText? (text : String) : Option Expression :=
  ((tokens text).mapM Item.ofText?).map Expression.mk

theorem tokens_text {expression : Expression} (nonempty : expression.items ≠ []) :
    tokens expression.text = expression.items.map Item.text := by
  have noBlank : ∀ token ∈ expression.items.map Item.text, ' ' ∉ token.toList := by
    rw [List.forall_mem_map]
    exact fun item _ => item.blank_not_mem_text
  have parts := String.toList_split_intercalate noBlank
  rw [if_neg (by simpa using nonempty)] at parts
  exact parts

/-- Even an empty text has one token, which is neither an operator nor a number. -/
theorem ofText?_text_empty : ofText? (text .empty) = none := by
  have parts := String.toList_split_intercalate (c := ' ') (l := []) (by simp)
  rw [if_pos rfl] at parts
  have single : tokens (text .empty) = [""] := parts
  rw [ofText?, single]
  decide +kernel

/-- Items read one by one off their texts. -/
theorem mapM_ofText? (items : List Item) :
    (items.map Item.text).mapM Item.ofText? = some items := by
  induction items with
  | nil => rfl
  | cons item items inductionHypothesis =>
      rw [List.map_cons, List.mapM_cons, item.ofText?_text, inductionHypothesis]
      rfl

theorem ofText?_text {expression : Expression} (nonempty : expression.items ≠ []) :
    ofText? expression.text = some expression := by
  rw [ofText?, tokens_text nonempty, mapM_ofText?]
  rfl

/-- What cannot be read is the text of the empty expression. -/
theorem getD_ofText?_text (expression : Expression) :
    (ofText? expression.text).getD .empty = expression := by
  by_cases isEmpty : expression.items = []
  · have whole : expression = .empty := congrArg mk isEmpty
    rw [whole, ofText?_text_empty]
    rfl
  · rw [ofText?_text isEmpty, Option.getD_some]

/-- Texts of expressions are faithful, whatever the order of the items. Between the blanks stand the
items' own texts, and reading each of them gives the items back: operators by their symbols, all else
as numbers, with zeros of either sign and infinities apart. The text of a finite number has its sign
and denotes a number that is rounded to it, so that no other value can be read. So only one expression
has a given text, even among those without items. -/
theorem text_reads_back :
    (∀ expression : Expression, expression.items ≠ [] →
      tokens expression.text = expression.items.map Item.text ∧
        ofText? expression.text = some expression) ∧
      (∀ (negative : Bool) (magnitude : Magnitude), ∃ written : WrittenForm,
        (Item.number (.finite negative magnitude)).text.toList =
            (if negative then ['-'] else []) ++ written.text false ∧
          Binary64.IsNearest negative written.size (.finite negative magnitude)) ∧
      Function.Injective text := by
  refine ⟨fun expression nonempty => ?_, fun negative magnitude => ?_, ?_⟩
  · exact ⟨tokens_text nonempty, ofText?_text nonempty⟩
  · rw [Item.text, Binary64.rowText, String.toList_ofList]
    exact NumeralStyle.row.exists_write negative magnitude
  · exact Function.HasLeftInverse.injective
      ⟨fun text => (ofText? text).getD .empty, getD_ofText?_text⟩

/-- Operators and numbers in no order: a hyphen is always a sign, in a number or in its power. -/
def unordered : Expression :=
  ⟨[.operator .subtract, .number (-.zero), .number (.infinite true), .operator .add,
    .number (.ofDecimal false 1 16), .number (.ofDecimal true 5 (-324)), .operator .subtract]⟩

theorem text_reads_back_unordered :
    unordered.text = "\u2212 -0.0 -inf + 1e16 -5e-324 \u2212" ∧
      ofText? "\u2212 -0.0 -inf + 1e16 -5e-324 \u2212" = some unordered := by
  have written : unordered.text = "\u2212 -0.0 -inf + 1e16 -5e-324 \u2212" := by decide +kernel
  obtain ⟨readBack, _⟩ := text_reads_back
  obtain ⟨_, read⟩ := readBack unordered (by simp [unordered])
  rw [written] at read
  exact ⟨written, read⟩

end Expression

end Keypad
