import Keypad.Proofs.Json.Verdict

/-!
Contract: what a reader makes of an array or an object is made of what it makes of the parts.

Owns:
- arrays as the verdicts of their elements in order;
- objects as a run through their members, each with the verdict of the reader chosen for it;
- records in both forms.

Does not own: which members a record has.
-/

namespace Keypad.Json

/-! ## Arrays -/

section Arrays

variable {α : Type} {reader : Reader α} {first : Bool} {inside : List Char}
  {texts : List (List Char)}

theorem Steady.nextElement (steady : Steady reader) {lead text rest : List Char}
    (leads : Leads first lead) (isValue : IsValue text) (ends : endsNumber rest = true) :
    nextElement reader first (lead ++ (text ++ rest)) =
      (verdict reader text).map fun value => (some value, rest) := by
  have run := (steady.gives isValue).run_eq ends
  obtain ⟨character, tail, rfl, notBlank, notClosing⟩ := isValue.begins
  rw [List.cons_append] at run
  rw [List.cons_append, nextElement_leads leads notBlank notClosing, run]
  cases verdict reader (character :: tail) <;> rfl

theorem nextElement_end (reader : Reader α) (first : Bool) {blanks : List Char}
    (blank : blanks.all isBlank = true) (rest : List Char) :
    nextElement reader first (blanks ++ ']' :: rest) = .ok (none, ']' :: rest) := by
  have startEq : skipBlanks (blanks ++ ']' :: rest) = ']' :: rest := skipBlanks_append blank
  simp only [Json.nextElement, startEq]

/-- The elements are read in order up to the first that is refused. -/
theorem Steady.elementsFrom (steady : Steady reader) (holds : Holds IsElement first inside texts)
    (before : List α) (rest : List Char) :
    elementsFrom reader before first (inside ++ ']' :: rest) =
      (texts.mapM (verdict reader)).map fun values => (before.reverse ++ values, rest) := by
  induction holds generalizing before with
  | nil blank =>
      rw [elementsFrom_eq, nextElement_end reader _ blank rest]
      show Except.ok (before.reverse, rest) = Except.ok (before.reverse ++ [], rest)
      rw [List.append_nil]
  | @cons first lead text others element elements leads part holds inductionHypothesis =>
      obtain ⟨rfl, isValue⟩ := part
      have ends : endsNumber (others ++ ']' :: rest) = true :=
        endsNumber_holds holds (fun _ => rfl) rest
      rw [List.append_assoc, List.append_assoc, elementsFrom_eq,
        steady.nextElement leads isValue ends, List.mapM_cons]
      cases found : verdict reader text with
      | error fault => rfl
      | ok value =>
          show Json.elementsFrom reader (value :: before) false _ = _
          rw [inductionHypothesis]
          cases elements.mapM (verdict reader) with
          | error fault => rfl
          | ok values => simp [Except.map, bind, Except.bind, pure, Except.pure]

theorem Steady.gives_array (steady : Steady reader) (holds : Holds IsElement true inside texts) :
    Gives (array reader) ('[' :: (inside ++ [']'])) (texts.mapM (verdict reader)) := by
  intro blanks rest blank _
  have startEq := skipBlanks_enclosed '[' ']' rfl blank inside rest
  simp only [Json.array, startEq, steady.elementsFrom holds]
  rfl

theorem IsValue.exists_elements {tail : List Char} (isValue : IsValue ('[' :: tail)) :
    ∃ inside texts, tail = inside ++ [']'] ∧ Holds IsElement true inside texts := by
  cases isValue with
  | array blank spaced values =>
      obtain ⟨inside, textEq, holds⟩ := holds_arrayText blank spaced values
      exact ⟨inside, _, (List.cons.inj textEq).2, holds⟩
  | number isNumber => simpa using isNumber.first_eq
  | string isString =>
      obtain ⟨_, textEq, _⟩ := isString
      cases textEq

theorem Steady.array (steady : Steady reader) : Steady (array reader) := by
  intro text isValue
  obtain ⟨character, tail, rfl, _⟩ := isValue.begins
  by_cases isArray : character = '['
  · subst isArray
    obtain ⟨inside, texts, rfl, holds⟩ := isValue.exists_elements
    exact ⟨_, steady.gives_array holds⟩
  · apply isValue.gives_wrongType .sequence
    intro whole rest startEq
    simp [Json.array, startEq, isArray]

/-- The next element is refused, or found with the others behind it, whatever stands behind the
array. -/
theorem Steady.exists_nextElement (steady : Steady reader)
    (holds : Holds IsElement first inside texts) :
    (∃ fault, ∀ rest, Json.nextElement reader first (inside ++ ']' :: rest) = .error fault) ∨
      ∃ found others remaining, Holds IsElement false others remaining ∧
        ∀ rest, Json.nextElement reader first (inside ++ ']' :: rest) =
          .ok (found, others ++ ']' :: rest) := by
  cases holds with
  | nil blank =>
      exact .inr ⟨none, [], [], .nil List.all_nil, nextElement_end reader first blank⟩
  | @cons _ lead text others element remaining leads part holds =>
      obtain ⟨rfl, isValue⟩ := part
      have next (rest : List Char) :
          Json.nextElement reader first (lead ++ (text ++ others) ++ ']' :: rest) =
            (verdict reader text).map fun value => (some value, others ++ ']' :: rest) := by
        rw [List.append_assoc, List.append_assoc]
        exact steady.nextElement leads isValue (endsNumber_holds holds (fun _ => rfl) rest)
      cases found : verdict reader text with
      | error fault =>
          rw [found] at next
          exact .inl ⟨fault, next⟩
      | ok value =>
          rw [found] at next
          exact .inr ⟨some value, others, remaining, holds, next⟩

/-- An array is closed behind its last element only. -/
theorem exists_closeArray (holds : Holds IsElement false inside texts) :
    ∃ outcome : Result Unit, ∀ rest, closeArray (inside ++ ']' :: rest) =
      outcome.map fun _ => rest := by
  cases holds with
  | nil blank =>
      refine ⟨.ok (), fun rest => ?_⟩
      have startEq : skipBlanks (inside ++ ']' :: rest) = ']' :: rest := skipBlanks_append blank
      simp only [closeArray, startEq]
      rfl
  | cons leads _ _ =>
      cases leads with
      | later gapBlank _ =>
          refine ⟨.error .malformed, fun rest => ?_⟩
          unfold closeArray
          rw [List.append_assoc, List.append_assoc, skipBlanks_append gapBlank]
          rfl

end Arrays

/-! ## Members -/

/-- What a reader gives behind a key, for a colon and a value with blanks before both. -/
def GivesMember {α : Type} (reader : Reader α) (text : List Char) (outcome : Result α) : Prop :=
  ∀ gap room rest : List Char, gap.all isBlank = true → room.all isBlank = true →
    endsNumber rest = true →
    reader.run (gap ++ ':' :: (room ++ (text ++ rest))) = outcome.map fun value => (value, rest)

/-- A reader behind a key makes the same of a member wherever the member stands. -/
def SteadyMember {α : Type} (reader : Reader α) : Prop :=
  ∀ text : List Char, IsValue text → ∃ outcome, GivesMember reader text outcome

/-- What a reader gives behind a key for a colon and a text. -/
def memberVerdict {α : Type} (reader : Reader α) (text : List Char) : Result α :=
  (reader.run (':' :: text)).map Prod.fst

section Members

variable {α β σ : Type} {reader : Reader α} {text : List Char} {outcome : Result α}

theorem GivesMember.memberVerdict_eq (gives : GivesMember reader text outcome) :
    memberVerdict reader text = outcome := by
  have run := gives [] [] [] rfl rfl rfl
  rw [List.nil_append, List.nil_append, List.append_nil] at run
  unfold memberVerdict
  rw [run]
  cases outcome <;> rfl

theorem SteadyMember.gives (steady : SteadyMember reader) (isValue : IsValue text) :
    GivesMember reader text (memberVerdict reader text) := by
  obtain ⟨outcome, gives⟩ := steady text isValue
  rw [gives.memberVerdict_eq]
  exact gives

theorem Gives.member (gives : Gives reader text outcome) :
    GivesMember (member reader) text outcome := by
  intro gap room rest gapBlank roomBlank ends
  rw [run_member reader gapBlank]
  exact gives room rest roomBlank ends

theorem GivesMember.map (gives : GivesMember reader text outcome) (change : α → β) :
    GivesMember (reader.map change) text (outcome.map change) := by
  intro gap room rest gapBlank roomBlank ends
  have run := gives gap room rest gapBlank roomBlank ends
  cases outcome <;> simp [Reader.map, Reader.andThen, run, Except.map]

theorem givesMember_refuse (fault : Fault) (text : List Char) :
    GivesMember (.refuse fault : Reader α) text (.error fault) :=
  fun _ _ _ _ _ _ => rfl

/-- What is gathered with one more member. -/
def gatherMember (choose : String → σ → Reader σ) (gathered : σ)
    (entry : List Char × List Char) : Result σ :=
  (verdict (Json.text .text) entry.1).bind fun name =>
    memberVerdict (choose name gathered) entry.2

/-- A key is found or refused by itself. -/
theorem nextKey_isString {first : Bool} {lead key : List Char} (leads : Leads first lead)
    (isKey : IsString key) (rest : List Char) :
    nextKey first (lead ++ (key ++ rest)) =
      (verdict (Json.text .text) key).map fun name => (some name, rest) := by
  obtain ⟨inside, rfl, isInside⟩ := isKey
  obtain ⟨outcome, given⟩ := isInside.steady.1 []
  have keyEq : '"' :: (inside ++ ['"']) ++ rest = '"' :: (inside ++ '"' :: rest) := by simp
  rw [(gives_text .text given).verdict_eq, keyEq, nextKey_leads leads, readKey, given]
  cases outcome <;> rfl

/-- The members are gathered in order up to the first that is refused. -/
theorem membersFrom_holds {choose : String → σ → Reader σ}
    (steady : ∀ name gathered, SteadyMember (choose name gathered)) {first : Bool}
    {inside : List Char} {entries : List (List Char × List Char)}
    (holds : Holds IsMember first inside entries) (gathered : σ) (rest : List Char) :
    membersFrom choose gathered first (inside ++ '\x7d' :: rest) =
      (entries.foldlM (gatherMember choose) gathered).map fun result => (result, rest) := by
  induction holds generalizing gathered with
  | nil blank => exact membersFrom_end (nextKey_end blank _ rest)
  | @cons first lead text others entry entries leads part holds inductionHypothesis =>
      cases part with
      | @mk key gap room value isKey gapBlank roomBlank isValue =>
      have ends : endsNumber (others ++ '\x7d' :: rest) = true :=
        endsNumber_holds holds (fun _ => rfl) rest
      have unfolded : lead ++ (key ++ (gap ++ ':' :: (room ++ value)) ++ others) ++ '\x7d' :: rest =
          lead ++ (key ++ (gap ++ ':' :: (room ++ (value ++ (others ++ '\x7d' :: rest))))) := by
        simp
      rw [unfolded, membersFrom_eq, nextKey_isString leads isKey, List.foldlM_cons]
      cases named : verdict (Json.text .text) key with
      | error fault => simp [gatherMember, named, Except.map, Except.bind, bind]
      | ok name =>
          have run := (steady name gathered).gives isValue gap room _ gapBlank roomBlank ends
          show ((choose name gathered).run _).bind _ = _
          rw [run]
          cases found : memberVerdict (choose name gathered) value with
          | error fault => simp [gatherMember, named, found, Except.map, Except.bind, bind]
          | ok extended =>
              have step : gatherMember choose gathered (key, value) = .ok extended := by
                simp [gatherMember, named, found, Except.bind]
              rw [step]
              exact inductionHypothesis extended

theorem IsValue.exists_members {tail : List Char} (isValue : IsValue ('\x7b' :: tail)) :
    ∃ inside entries, tail = inside ++ ['\x7d'] ∧ Holds IsMember true inside entries := by
  cases isValue with
  | object blank spaced keys values =>
      have spelled : SpellsObject _ _ := ⟨_, blank, fun member isMember =>
        ⟨(spaced member isMember).1, (spaced member isMember).2, keys member isMember,
          values member isMember⟩, rfl⟩
      obtain ⟨inside, textEq, holds⟩ := spelled.holds
      exact ⟨inside, _, (List.cons.inj textEq).2, holds⟩
  | number isNumber => simpa using isNumber.first_eq
  | string isString =>
      obtain ⟨_, textEq, _⟩ := isString
      cases textEq

end Members

/-! ## Records -/

/-- The fields of a record in an array make the same of it whatever stands behind the array. -/
def SteadyElements {α : Type} (ofElements : List Char → Step α) : Prop :=
  ∀ (inside : List Char) (texts : List (List Char)), Holds IsElement true inside texts →
    (∃ fault, ∀ rest, ofElements (inside ++ ']' :: rest) = .error fault) ∨
      ∃ value others remaining, Holds IsElement false others remaining ∧
        ∀ rest, ofElements (inside ++ ']' :: rest) = .ok (value, others ++ ']' :: rest)

/-- The members of a record make the same of it whatever stands behind the object. -/
def SteadyMembers {α : Type} (ofMembers : List Char → Step α) : Prop :=
  ∀ (inside : List Char) (entries : List (List Char × List Char)),
    Holds IsMember true inside entries →
    ∃ outcome : Result α, ∀ rest, ofMembers (inside ++ '\x7d' :: rest) =
      outcome.map fun value => (value, rest)

section Records

variable {α : Type} {name : String} {ofElements ofMembers : List Char → Step α}
  (elementsShorter : ∀ {text rest : List Char} {value : α},
    ofElements text = .ok (value, rest) → rest.length ≤ text.length)
  (membersShorter : ∀ {text rest : List Char} {value : α},
    ofMembers text = .ok (value, rest) → rest.length ≤ text.length)

/-- An object is given to the reader of its members. -/
theorem gives_record {inside : List Char} {outcome : Result α}
    (members : ∀ rest, ofMembers (inside ++ '\x7d' :: rest) =
      outcome.map fun value => (value, rest)) :
    Gives (record name ofElements ofMembers elementsShorter membersShorter)
      ('\x7b' :: (inside ++ ['\x7d'])) outcome := by
  intro blanks rest blank _
  have startEq := skipBlanks_enclosed '\x7b' '\x7d' rfl blank inside rest
  simp only [record, startEq, members]

theorem exists_gives_record (elements : SteadyElements ofElements) {inside : List Char}
    {texts : List (List Char)} (holds : Holds IsElement true inside texts) :
    ∃ outcome, Gives (record name ofElements ofMembers elementsShorter membersShorter)
      ('[' :: (inside ++ [']'])) outcome := by
  have startEq {blanks : List Char} (blank : blanks.all isBlank = true) (rest : List Char) :=
    skipBlanks_enclosed '[' ']' rfl blank inside rest
  rcases elements inside texts holds with ⟨fault, refused⟩ | ⟨value, others, remaining, later, read⟩
  · refine ⟨.error fault, fun blanks rest blank _ => ?_⟩
    simp only [record, startEq blank, refused]
    rfl
  · obtain ⟨closing, closed⟩ := exists_closeArray later
    refine ⟨closing.map fun _ => value, fun blanks rest blank _ => ?_⟩
    simp only [record, startEq blank, read, closed]
    cases closing <;> rfl

theorem steady_record (elements : SteadyElements ofElements) (members : SteadyMembers ofMembers) :
    Steady (record name ofElements ofMembers elementsShorter membersShorter) := by
  intro text isValue
  obtain ⟨character, tail, rfl, _⟩ := isValue.begins
  by_cases isArray : character = '['
  · subst isArray
    obtain ⟨inside, texts, rfl, holds⟩ := isValue.exists_elements
    exact exists_gives_record elementsShorter membersShorter elements holds
  by_cases isObject : character = '\x7b'
  · subst isObject
    obtain ⟨inside, entries, rfl, holds⟩ := isValue.exists_members
    obtain ⟨outcome, given⟩ := members inside entries holds
    exact ⟨outcome, gives_record elementsShorter membersShorter given⟩
  · apply isValue.gives_wrongType (.record name)
    intro whole rest startEq
    simp [record, startEq, isArray, isObject]

end Records

end Keypad.Json
