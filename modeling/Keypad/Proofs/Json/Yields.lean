import Keypad.Json.Reader
import Keypad.Proofs.Json.NumberRange

/-!
Contract: what holds of every value that a reader gives.

Owns:
- a property of all values of a reader, through changes, options, members, arrays, objects and
  records;
- that every binary64 value read is finite.

Does not own: which texts a reader takes.
-/

namespace Keypad.Json

/-- Every value that a reader gives has a property. -/
def Yields {α : Type} (reader : Reader α) (property : α → Prop) : Prop :=
  ∀ (text rest : List Char) (value : α), reader.run text = .ok (value, rest) → property value

section Values

variable {α β : Type} {reader : Reader α} {property : α → Prop}

theorem Yields.andThen {next : α → Result β} {changed : β → Prop} (yields : Yields reader property)
    (keeps : ∀ {value result}, property value → next value = .ok result → changed result) :
    Yields (reader.andThen next) changed := by
  intro text rest value read
  simp only [Reader.andThen] at read
  split at read
  next found _ foundRead =>
    split at read
    next accepted =>
      cases read
      exact keeps (yields _ _ _ foundRead) accepted
    · simp at read
  · simp at read

theorem Yields.map {change : α → β} {changed : β → Prop} (yields : Yields reader property)
    (keeps : ∀ {value}, property value → changed (change value)) :
    Yields (reader.map change) changed := by
  refine yields.andThen fun holds accepted => ?_
  cases accepted
  exact keeps holds

theorem yields_refuse (fault : Fault) : Yields (.refuse fault) property := by
  intro text rest value read
  cases read

theorem yields_true : Yields reader fun _ => True := fun _ _ _ _ => trivial

theorem Yields.member (yields : Yields reader property) : Yields (member reader) property := by
  intro text rest value read
  simp only [Json.member] at read
  split at read
  · exact yields _ _ _ read
  · simp at read

theorem Yields.optional (yields : Yields reader property) :
    Yields (optional reader) fun found => ∀ value ∈ found, property value := by
  intro text rest found read
  simp only [Json.optional] at read
  split at read
  · split at read
    · cases read
      simp
    · simp at read
  · split at read
    next foundRead =>
      cases read
      rintro _ ⟨⟩
      exact yields _ _ _ foundRead
    · simp at read

theorem yields_binary64 : Yields binary64 fun value => value.isFinite = true := by
  have numbers : Yields (number .number) fun found => found.toBinary64.isFinite = true := by
    intro text rest value read
    simp only [number] at read
    split at read
    · exact readNumber_isFinite read
    · simp at read
  exact numbers.map fun finite => finite

/-- An element is what the reader takes somewhere in the text. -/
theorem run_of_nextElement {first : Bool} {text rest : List Char} {value : α}
    (read : nextElement reader first text = .ok (some value, rest)) :
    ∃ start, reader.run start = .ok (value, rest) := by
  simp only [nextElement] at read
  split at read
  · simp at read
  · simp at read
  · split_ifs at read
    · split at read
      next found =>
        cases read
        exact ⟨_, found⟩
      · simp at read
    · split at read
      · simp at read
      · simp at read
      · split at read
        next found =>
          cases read
          exact ⟨_, found⟩
        · simp at read

theorem Yields.nextElement (yields : Yields reader property) {first : Bool}
    {text rest : List Char} {found : Option α}
    (read : nextElement reader first text = .ok (found, rest)) :
    ∀ value ∈ found, property value := by
  rintro value ⟨⟩
  obtain ⟨start, run⟩ := run_of_nextElement read
  exact yields _ _ _ run

theorem Yields.elementsFrom (yields : Yields reader property) {before : List α} {first : Bool}
    {text rest : List Char} {values : List α} (held : ∀ value ∈ before, property value)
    (read : elementsFrom reader before first text = .ok (values, rest)) :
    ∀ value ∈ values, property value := by
  fun_induction Json.elementsFrom reader before first text with
  | case1 => cases read
  | case2 =>
      cases read
      simpa using held
  | case3 => cases read
  | case4 before first text value afterValue element _ inductionHypothesis =>
      refine inductionHypothesis ?_ read
      intro other member
      rcases List.mem_cons.mp member with rfl | earlier
      · exact yields.nextElement element _ rfl
      · exact held other earlier

theorem Yields.array (yields : Yields reader property) :
    Yields (array reader) fun values => ∀ value ∈ values, property value := by
  intro text rest values read
  simp only [Json.array] at read
  split at read
  · exact yields.elementsFrom (List.forall_mem_nil _) read
  · simp at read

theorem yields_membersFrom {choose : String → α → Reader α} {gathered result : α} {first : Bool}
    {text rest : List Char}
    (keeps : ∀ name gathered, property gathered → Yields (choose name gathered) property)
    (held : property gathered)
    (read : membersFrom choose gathered first text = .ok (result, rest)) : property result := by
  fun_induction membersFrom choose gathered first text with
  | case1 => cases read
  | case2 =>
      cases read
      exact held
  | case3 => cases read
  | case4 gathered first text name afterKey _ extended afterValue value _ _ inductionHypothesis =>
      exact inductionHypothesis (keeps name gathered held _ _ _ value) read

theorem yields_record (name : String) {ofElements ofMembers : List Char → Step α}
    (elementsShorter : ∀ {text rest : List Char} {value : α},
      ofElements text = .ok (value, rest) → rest.length ≤ text.length)
    (membersShorter : ∀ {text rest : List Char} {value : α},
      ofMembers text = .ok (value, rest) → rest.length ≤ text.length)
    (elements : ∀ text rest value, ofElements text = .ok (value, rest) → property value)
    (members : ∀ text rest value, ofMembers text = .ok (value, rest) → property value) :
    Yields (record name ofElements ofMembers elementsShorter membersShorter) property := by
  intro text rest value read
  simp only [record] at read
  split at read
  · split at read
    next elementsRead =>
      split at read
      · cases read
        exact elements _ _ _ elementsRead
      · simp at read
    · simp at read
  · exact members _ _ _ read
  · simp at read

theorem Yields.readAll (yields : Yields reader property) {text : String} {value : α}
    (read : readAll reader text = .ok value) : property value := by
  unfold Json.readAll at read
  split at read
  next found =>
    split at read
    · cases read
      exact yields _ _ _ found
    · simp at read
  · simp at read

end Values

end Keypad.Json
