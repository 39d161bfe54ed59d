import Keypad.Json.Number
import Keypad.Json.Text

/-!
Contract: reading typed values from the front of a JSON text.

A reader takes at least one character for every value, so lists and objects are read by recursion on
the length of what is left.

Owns:
- readers, and readers of numbers, texts, literals and options;
- the elements of arrays and the members of objects, with the exact problem that a missing or
  misplaced separator is;
- the report of a value of another kind.

Does not own: values that are passed over, the records of the calculator.
-/

namespace Keypad.Json

/-- A reader of values, with the promise that it takes at least one character. -/
structure Reader (α : Type) where
  run : List Char → Step α
  shorter : ∀ {text rest : List Char} {value : α},
    run text = .ok (value, rest) → rest.length < text.length

namespace Reader

/-- Changes or refuses the values of a reader. -/
def andThen {α β : Type} (reader : Reader α) (next : α → Result β) : Reader β where
  run text :=
    match reader.run text with
    | .ok (value, rest) =>
        match next value with
        | .ok result => .ok (result, rest)
        | .error fault => .error fault
    | .error fault => .error fault
  shorter := by
    intro text rest value read
    split at read
    next found tail foundRead =>
      split at read
      · cases read
        exact reader.shorter foundRead
      · cases read
    · cases read

/-- Changes the values of a reader. -/
def map {α β : Type} (change : α → β) (reader : Reader α) : Reader β :=
  reader.andThen fun value => .ok (change value)

/-- Refuses every text. -/
def refuse {α : Type} (fault : Fault) : Reader α where
  run _ := .error fault
  shorter := by
    intro text rest value read
    cases read

end Reader

/-! ## Blanks and literals -/

/-- The characters between tokens. -/
def isBlank (character : Char) : Bool :=
  character = ' ' || character = '\t' || character = '\n' || character = '\r'

/-- The text from its first character that is not a blank. -/
def skipBlanks (text : List Char) : List Char := text.dropWhile isBlank

theorem skipBlanks_length (text : List Char) : (skipBlanks text).length ≤ text.length :=
  (List.dropWhile_suffix isBlank).length_le

/-- Reads the letters of a literal one by one. -/
def readLetters : List Char → List Char → Result (List Char)
  | [], text => .ok text
  | _ :: _, [] => .error .truncated
  | letter :: letters, character :: rest =>
      if letter = character then readLetters letters rest else .error .malformed

theorem readLetters_length {letters text rest : List Char}
    (read : readLetters letters text = .ok rest) : rest.length ≤ text.length := by
  fun_induction readLetters letters text with
  | case1 =>
      cases read
      exact Nat.le_refl _
  | case2 => cases read
  | case3 letters character tail inductionHypothesis =>
      have further := inductionHypothesis read
      simp only [List.length_cons]
      omega
  | case4 => cases read

/-! ## Values of another kind -/

/-- Reports the value at the front of a text as not of the expected kind. The value is read as far
as the report needs it, so a problem in it comes first; an array or object is reported by its
bracket. -/
def wrongType (expected : Expected) (text : List Char) : Fault :=
  let mismatch (found : Found) : Fault := .misfit (.wrongType found expected)
  let afterLetters (letters rest : List Char) (found : Found) : Fault :=
    match readLetters letters rest with
    | .ok _ => mismatch found
    | .error fault => fault
  match text with
  | [] => .truncated
  | 'n' :: rest => afterLetters ['u', 'l', 'l'] rest .null
  | 't' :: rest => afterLetters ['r', 'u', 'e'] rest (.boolean true)
  | 'f' :: rest => afterLetters ['a', 'l', 's', 'e'] rest (.boolean false)
  | '[' :: _ => mismatch .sequence
  | '\x7b' :: _ => mismatch .map
  | '"' :: rest =>
      match readTextFrom [] rest with
      | .ok (value, _) => mismatch (.text value)
      | .error fault => fault
  | first :: _ =>
      if first = '-' ∨ first.isDigit then
        match readNumber text with
        | .ok (number, _) => mismatch number.found
        | .error fault => fault
      else
        .malformed

/-! ## Single values -/

/-- Whether a text begins as a number does. -/
def beginsNumber : List Char → Bool
  | first :: _ => first = '-' || first.isDigit
  | [] => false

/-- Reads a number where one is expected. -/
def number (expected : Expected) : Reader Number where
  run text :=
    let start := skipBlanks text
    if beginsNumber start then readNumber start else .error (wrongType expected start)
  shorter := by
    intro text rest value read
    dsimp only at read
    split at read
    · exact Nat.lt_of_lt_of_le (readNumber_length read) (skipBlanks_length text)
    · cases read

/-- Reads a binary64 value. -/
def binary64 : Reader Binary64 := (number .number).map Number.toBinary64

/-- Reads a natural number of 64 bits; only whole literals fit. -/
def count : Reader UInt64 :=
  (number .count).andThen fun
    | .natural value => .ok (UInt64.ofNat value)
    | .negative size => .error (.misfit (.wrongValue (Number.negative size).found .count))
    | .float value => .error (.misfit (.wrongType (.float value) .count))

/-- Reads a text where one is expected. -/
def text (expected : Expected) : Reader String where
  run text :=
    match skipBlanks text with
    | '"' :: rest => readTextFrom [] rest
    | other => .error (wrongType expected other)
  shorter := by
    intro text rest value read
    split at read
    next tail start =>
      have shorter := readTextFrom_length read
      have bound := skipBlanks_length text
      rw [start, List.length_cons] at bound
      omega
    · cases read

/-- Reads `null` as none, and any other value by the given reader. -/
def optional {α : Type} (reader : Reader α) : Reader (Option α) where
  run text :=
    match skipBlanks text with
    | 'n' :: rest =>
        match readLetters ['u', 'l', 'l'] rest with
        | .ok rest => .ok (none, rest)
        | .error fault => .error fault
    | other =>
        match reader.run other with
        | .ok (value, rest) => .ok (some value, rest)
        | .error fault => .error fault
  shorter := by
    intro text rest value read
    have bound := skipBlanks_length text
    split at read
    next tail start =>
      rw [start, List.length_cons] at bound
      split at read
      next afterLetters lettersRead =>
        have further := readLetters_length lettersRead
        cases read
        omega
      · cases read
    · split at read
      next found tail foundRead =>
        have further := reader.shorter foundRead
        cases read
        omega
      · cases read

/-! ## Arrays -/

/-- Reads the next element of an array, or finds its closing bracket without taking it. -/
def nextElement {α : Type} (reader : Reader α) (first : Bool) (text : List Char) :
    Step (Option α) :=
  let element (text : List Char) : Step (Option α) :=
    match reader.run text with
    | .ok (value, rest) => .ok (some value, rest)
    | .error fault => .error fault
  match skipBlanks text with
  | [] => .error .truncated
  | ']' :: rest => .ok (none, ']' :: rest)
  | character :: rest =>
      if first then
        element (character :: rest)
      else if character = ',' then
        match skipBlanks rest with
        | [] => .error .truncated
        | ']' :: _ => .error .malformed
        | start => element start
      else
        .error .malformed

/-- Takes the closing bracket of an array whose elements have been read. -/
def closeArray (text : List Char) : Result (List Char) :=
  match skipBlanks text with
  | [] => .error .truncated
  | ']' :: rest => .ok rest
  | _ => .error .malformed

theorem nextElement_length {α : Type} {reader : Reader α} {first : Bool}
    {text rest : List Char} {value : α}
    (read : nextElement reader first text = .ok (some value, rest)) :
    rest.length < text.length := by
  have bound := skipBlanks_length text
  simp only [nextElement] at read
  split at read
  · cases read
  · cases read
  next character tail _ start =>
    rw [start] at bound
    split at read
    · split at read
      next found afterFound foundRead =>
        have further := reader.shorter foundRead
        cases read
        omega
      · cases read
    · split at read
      · have innerBound := skipBlanks_length tail
        split at read
        · cases read
        · cases read
        · split at read
          next found afterFound foundRead =>
            have further := reader.shorter foundRead
            cases read
            simp only [List.length_cons] at bound
            omega
          · cases read
      · cases read

theorem nextElement_none_length {α : Type} {reader : Reader α} {first : Bool}
    {text rest : List Char}
    (read : nextElement reader first text = .ok (none, rest)) :
    rest.length ≤ text.length := by
  have bound := skipBlanks_length text
  simp only [nextElement] at read
  split at read
  · cases read
  next tail start =>
    rw [start] at bound
    cases read
    exact bound
  next character tail _ start =>
    split at read
    · split at read <;> cases read
    · split at read
      · split at read
        · cases read
        · cases read
        · split at read <;> cases read
      · cases read

theorem nextElement_length_le {α : Type} {reader : Reader α} {first : Bool}
    {text rest : List Char} {value : Option α}
    (read : nextElement reader first text = .ok (value, rest)) : rest.length ≤ text.length := by
  cases value with
  | none => exact nextElement_none_length read
  | some value => exact Nat.le_of_lt (nextElement_length read)

theorem closeArray_length {text rest : List Char} (closed : closeArray text = .ok rest) :
    rest.length < text.length := by
  have bound := skipBlanks_length text
  unfold closeArray at closed
  split at closed
  · cases closed
  next tail start =>
    rw [start, List.length_cons] at bound
    cases closed
    omega
  · cases closed

/-- Reads the elements of an array up to its closing bracket; `before` holds what was read, last
first. -/
def elementsFrom {α : Type} (reader : Reader α) (before : List α) (first : Bool)
    (text : List Char) : Step (List α) :=
  match element : nextElement reader first text with
  | .error fault => .error fault
  | .ok (none, rest) =>
      match closeArray rest with
      | .ok rest => .ok (before.reverse, rest)
      | .error fault => .error fault
  | .ok (some value, rest) =>
      have _shorter := nextElement_length element
      elementsFrom reader (value :: before) false rest
termination_by text.length

theorem elementsFrom_length {α : Type} {reader : Reader α} {before : List α} {first : Bool}
    {text rest : List Char} {values : List α}
    (read : elementsFrom reader before first text = .ok (values, rest)) :
    rest.length < text.length := by
  fun_induction elementsFrom reader before first text with
  | case1 => cases read
  | case2 before first text afterElements element afterClose closed =>
      have bound := nextElement_none_length element
      have further := closeArray_length closed
      cases read
      omega
  | case3 => cases read
  | case4 before first text value afterValue element shorter inductionHypothesis =>
      have further := inductionHypothesis read
      omega

/-- Reads an array. -/
def array {α : Type} (reader : Reader α) : Reader (List α) where
  run text :=
    match skipBlanks text with
    | '[' :: rest => elementsFrom reader [] true rest
    | other => .error (wrongType .sequence other)
  shorter := by
    intro text rest value read
    have bound := skipBlanks_length text
    split at read
    next tail start =>
      have further := elementsFrom_length read
      rw [start, List.length_cons] at bound
      omega
    · cases read

/-! ## Objects -/

/-- Reads a key after its opening mark. -/
def readKey (text : List Char) : Step (Option String) :=
  match readTextFrom [] text with
  | .ok (key, rest) => .ok (some key, rest)
  | .error fault => .error fault

/-- Reads the next key of an object, or takes its closing brace. -/
def nextKey (first : Bool) (text : List Char) : Step (Option String) :=
  match skipBlanks text with
  | [] => .error .truncated
  | '\x7d' :: rest => .ok (none, rest)
  | character :: rest =>
      if first then
        if character = '"' then readKey rest else .error .malformed
      else if character = ',' then
        match skipBlanks rest with
        | [] => .error .truncated
        | '"' :: start => readKey start
        | _ => .error .malformed
      else
        .error .malformed

/-- Takes the colon between a key and its value. -/
def readColon (text : List Char) : Result (List Char) :=
  match skipBlanks text with
  | [] => .error .truncated
  | ':' :: rest => .ok rest
  | _ => .error .malformed

theorem readKey_length {text rest : List Char} {key : Option String}
    (read : readKey text = .ok (key, rest)) : rest.length < text.length := by
  unfold readKey at read
  split at read
  next found tail foundRead =>
    cases read
    exact readTextFrom_length foundRead
  · cases read

theorem nextKey_length {first : Bool} {text rest : List Char} {key : Option String}
    (read : nextKey first text = .ok (key, rest)) : rest.length < text.length := by
  have bound := skipBlanks_length text
  unfold nextKey at read
  split at read
  · cases read
  next tail start =>
    rw [start, List.length_cons] at bound
    cases read
    omega
  next character tail _ start =>
    rw [start, List.length_cons] at bound
    split at read
    · split at read
      · have further := readKey_length read
        omega
      · cases read
    · split at read
      · have innerBound := skipBlanks_length tail
        split at read
        · cases read
        next keyStart inner =>
          have further := readKey_length read
          rw [inner, List.length_cons] at innerBound
          omega
        · cases read
      · cases read

theorem readColon_length {text rest : List Char} (read : readColon text = .ok rest) :
    rest.length < text.length := by
  have bound := skipBlanks_length text
  unfold readColon at read
  split at read
  · cases read
  next tail start =>
    rw [start, List.length_cons] at bound
    cases read
    omega
  · cases read

/-- Reads a colon and then a value. -/
def member {α : Type} (reader : Reader α) : Reader α where
  run text :=
    match readColon text with
    | .ok rest => reader.run rest
    | .error fault => .error fault
  shorter := by
    intro text rest value read
    split at read
    next tail colonRead =>
      have colon := readColon_length colonRead
      have further := reader.shorter read
      omega
    · cases read

/-- Reads the members of an object up to its closing brace. Each key chooses the reader of its
member, which takes what was gathered before to what is gathered with it. -/
def membersFrom {σ : Type} (choose : String → σ → Reader σ) (gathered : σ) (first : Bool)
    (text : List Char) : Step σ :=
  match key : nextKey first text with
  | .error fault => .error fault
  | .ok (none, rest) => .ok (gathered, rest)
  | .ok (some name, rest) =>
      match value : (choose name gathered).run rest with
      | .error fault => .error fault
      | .ok (extended, rest) =>
          have _keyShorter := nextKey_length key
          have _valueShorter := (choose name gathered).shorter value
          membersFrom choose extended false rest
termination_by text.length

theorem membersFrom_length {σ : Type} {choose : String → σ → Reader σ} {gathered result : σ}
    {first : Bool} {text rest : List Char}
    (read : membersFrom choose gathered first text = .ok (result, rest)) :
    rest.length < text.length := by
  fun_induction membersFrom choose gathered first text with
  | case1 => cases read
  | case2 gathered first text afterBrace key =>
      cases read
      exact nextKey_length key
  | case3 => cases read
  | case4 gathered first text name afterKey key extended afterValue value keyShorter valueShorter
      inductionHypothesis =>
      have further := inductionHypothesis read
      omega

/-! ## Records -/

/-- Reads a record, written as an object of its fields or as an array of them in order. -/
def record {α : Type} (name : String) (ofElements : List Char → Step α)
    (ofMembers : List Char → Step α)
    (elementsShorter : ∀ {text rest : List Char} {value : α},
      ofElements text = .ok (value, rest) → rest.length ≤ text.length)
    (membersShorter : ∀ {text rest : List Char} {value : α},
      ofMembers text = .ok (value, rest) → rest.length ≤ text.length) : Reader α where
  run text :=
    match skipBlanks text with
    | '[' :: rest =>
        match ofElements rest with
        | .ok (value, rest) =>
            match closeArray rest with
            | .ok rest => .ok (value, rest)
            | .error fault => .error fault
        | .error fault => .error fault
    | '\x7b' :: rest => ofMembers rest
    | other => .error (wrongType (.record name) other)
  shorter := by
    intro text rest value read
    have bound := skipBlanks_length text
    split at read
    next tail start =>
      rw [start, List.length_cons] at bound
      split at read
      next found afterElements elementsRead =>
        have elements := elementsShorter elementsRead
        split at read
        next afterClose closed =>
          have closing := closeArray_length closed
          cases read
          omega
        · cases read
      · cases read
    next tail start =>
      rw [start, List.length_cons] at bound
      have members := membersShorter read
      omega
    · cases read

/-! ## Whole texts -/

/-- Reads a whole text, after whose value only blanks may stand. -/
def readAll {α : Type} (reader : Reader α) (text : String) : Result α :=
  match reader.run text.toList with
  | .ok (value, rest) => if (skipBlanks rest).isEmpty then .ok value else .error .malformed
  | .error fault => .error fault

end Keypad.Json
