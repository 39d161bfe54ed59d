import Keypad.Json.Layout
import Keypad.Proofs.Json.Reads

/-!
Contract: readers take written arrays and objects for what they were written for.

Owns:
- arrays of written values;
- objects of written members, in the compact and in the open layout: each member is read by the
  reader that its key and the members before it choose.

Does not own: which members a record has.
-/

namespace Keypad.Json

/-! ## Arrays -/

theorem intercalate_cons {α : Type} (separator first : List α) (rest : List (List α)) :
    separator.intercalate (first :: rest) =
      first ++ rest.flatMap fun part => separator ++ part := by
  induction rest generalizing first with
  | nil => simp [List.intercalate]
  | cons second rest inductionHypothesis =>
      have unfolded : separator.intercalate (first :: second :: rest) =
          first ++ (separator ++ separator.intercalate (second :: rest)) := by
        simp [List.intercalate]
      rw [unfolded, inductionHypothesis, List.flatMap_cons, List.append_assoc]

section Arrays

variable {α : Type} {reader : Reader α} {value : α} {first : Bool} {text rest : List Char}

/-- An array is read one element at a time. -/
theorem elementsFrom_eq (reader : Reader α) (before : List α) (first : Bool) (text : List Char) :
    elementsFrom reader before first text =
      (nextElement reader first text).bind fun element =>
        element.1.elim ((closeArray element.2).map fun rest => (before.reverse, rest)) fun value =>
          elementsFrom reader (value :: before) false element.2 := by
  rw [elementsFrom]
  split
  next found =>
    rw [found]
    rfl
  next rest found =>
    rw [found]
    show _ = (closeArray rest).map fun rest => (before.reverse, rest)
    cases closeArray rest <;> rfl
  next value rest found =>
    show elementsFrom reader (value :: before) false rest = _
    rw [found]
    rfl

theorem elementsFrom_next (before : List α)
    (next : nextElement reader first text = .ok (some value, rest)) :
    elementsFrom reader before first text = elementsFrom reader (value :: before) false rest := by
  rw [elementsFrom_eq reader before first text, next]
  rfl

theorem elementsFrom_close (before : List α) (first : Bool) (rest : List Char) :
    elementsFrom reader before first (']' :: rest) = .ok (before.reverse, rest) := by
  rw [elementsFrom_eq]
  rfl

/-- An element is whatever the reader makes of its text, behind what may stand before it. -/
theorem nextElement_leads {lead : List Char} (leads : Leads first lead) {character : Char}
    (notBlank : isBlank character = false) (notClosing : character ≠ ']') (text : List Char) :
    nextElement reader first (lead ++ character :: text) =
      (reader.run (character :: text)).map fun step => (some step.1, step.2) := by
  have startEq {blanks : List Char} (blank : blanks.all isBlank = true) :
      skipBlanks (blanks ++ character :: text) = character :: text :=
    skipBlanks_start blank notBlank text
  cases found : reader.run (character :: text) <;> cases leads with
  | first blank => simp [nextElement, startEq blank, found, Except.map]
  | @later gap room gapBlank roomBlank =>
      have comma : skipBlanks (gap ++ ',' :: room ++ character :: text) =
          ',' :: (room ++ character :: text) := by
        rw [List.append_assoc]
        exact skipBlanks_append gapBlank
      simp only [nextElement, comma]
      simp [startEq roomBlank, notClosing, found, Except.map]

/-- What stands before an element: nothing before the first, a comma before the others. -/
def elementLead (first : Bool) : List Char := if first then [] else [',']

theorem leads_elementLead (first : Bool) : Leads first (elementLead first) := by
  cases first with
  | true => exact .first List.all_nil
  | false => exact .later List.all_nil List.all_nil

/-- Behind what stands before it, an element is whatever the reader makes of its text. -/
theorem nextElement_of_beginsValue (begins : beginsValue text = true) :
    nextElement reader first (elementLead first ++ (text ++ rest)) =
      (reader.run (text ++ rest)).map fun step => (some step.1, step.2) := by
  cases text with
  | nil => cases begins
  | cons character tail =>
      have notClosing : character ≠ ']' := by
        rintro rfl
        cases begins
      exact nextElement_leads (leads_elementLead first) (isBlank_of_beginsValue begins) notClosing _

theorem nextElement_written (reads : Reads reader text value) (ends : endsNumber rest = true) :
    nextElement reader first (elementLead first ++ (text ++ rest)) = .ok (some value, rest) := by
  have run := reads.run [] rest rfl ends
  rw [List.nil_append] at run
  simp only [nextElement_of_beginsValue reads.begins, run, Except.map]

/-- Written elements are read one after the other, and what stands behind them is left. -/
theorem elementsFrom_through {β : Type} {write : β → List Char} {change : β → α}
    {values : List β} (reads : ∀ value ∈ values, Reads reader (write value) (change value))
    (before : List α) {rest : List Char} (ends : endsNumber rest = true) :
    elementsFrom reader before false ((values.flatMap fun value => ',' :: write value) ++ rest) =
      elementsFrom reader ((values.map change).reverse ++ before) false rest := by
  induction values generalizing before with
  | nil => simp
  | cons value values inductionHypothesis =>
      have laterEnds :
          endsNumber ((values.flatMap fun value => ',' :: write value) ++ rest) = true := by
        cases values with
        | nil => exact ends
        | cons => rfl
      have next : nextElement reader false
          (',' :: (write value ++ ((values.flatMap fun value => ',' :: write value) ++ rest))) =
          .ok (some (change value), (values.flatMap fun value => ',' :: write value) ++ rest) :=
        nextElement_written (reads value (List.mem_cons_self ..)) laterEnds
      have later := inductionHypothesis
        (fun other member => reads other (List.mem_cons_of_mem _ member)) (change value :: before)
      simp only [List.flatMap_cons, List.cons_append, List.append_assoc]
      rw [elementsFrom_next before next, later]
      simp

theorem elementsFrom_written {β : Type} {write : β → List Char} {change : β → α}
    {values : List β} (reads : ∀ value ∈ values, Reads reader (write value) (change value))
    (before : List α) (rest : List Char) :
    elementsFrom reader before false
        ((values.flatMap fun value => ',' :: write value) ++ ']' :: rest) =
      .ok (before.reverse ++ values.map change, rest) := by
  rw [elementsFrom_through reads before rfl, elementsFrom_close]
  simp

end Arrays

/-- An array of written values is read as the array of what each is read as. -/
theorem reads_writeArray {α β : Type} {reader : Reader α} {write : β → List Char} {change : β → α}
    {values : List β} (reads : ∀ value ∈ values, Reads reader (write value) (change value)) :
    Reads (array reader) (writeArray (values.map write)) (values.map change) where
  begins := rfl
  run := by
    intro blanks rest all _
    have startEq : skipBlanks (blanks ++ (writeArray (values.map write) ++ rest)) =
        '[' :: ([','].intercalate (values.map write) ++ ']' :: rest) :=
      skipBlanks_enclosed '[' ']' rfl all ..
    simp only [array, startEq]
    cases values with
    | nil => exact elementsFrom_close [] true rest
    | cons value values =>
        have ends : endsNumber
            ((values.flatMap fun value => ',' :: write value) ++ ']' :: rest) = true := by
          cases values <;> rfl
        have next : nextElement reader true
            (write value ++ ((values.flatMap fun value => ',' :: write value) ++ ']' :: rest)) =
            .ok (some (change value), (values.flatMap fun value => ',' :: write value) ++
              ']' :: rest) :=
          nextElement_written (reads value (List.mem_cons_self ..)) ends
        have later := elementsFrom_written
          (fun other member => reads other (List.mem_cons_of_mem _ member)) [change value] rest
        rw [List.map_cons, intercalate_cons, List.append_assoc, List.flatMap_map]
        exact (elementsFrom_next [] next).trans later

/-! ## Objects -/

section Objects

variable {σ : Type} {choose : String → σ → Reader σ} {gathered extended : σ} {first : Bool}
  {name : String} {text afterKey rest : List Char}

/-- An object is read one member at a time. -/
theorem membersFrom_eq (choose : String → σ → Reader σ) (gathered : σ) (first : Bool)
    (text : List Char) :
    membersFrom choose gathered first text =
      (nextKey first text).bind fun key =>
        key.1.elim (.ok (gathered, key.2)) fun name =>
          ((choose name gathered).run key.2).bind fun value =>
            membersFrom choose value.1 false value.2 := by
  rw [membersFrom]
  split
  next foundKey =>
    rw [foundKey]
    rfl
  next foundKey =>
    rw [foundKey]
    rfl
  next name afterKey foundKey =>
    have opened : (nextKey first text).bind (fun key =>
        key.1.elim (.ok (gathered, key.2)) fun name =>
          ((choose name gathered).run key.2).bind fun value =>
            membersFrom choose value.1 false value.2) =
        ((choose name gathered).run afterKey).bind fun value =>
          membersFrom choose value.1 false value.2 := by
      rw [foundKey]
      rfl
    split
    next foundValue =>
      rw [opened, foundValue]
      rfl
    next extended rest foundValue =>
      show membersFrom choose extended false rest = _
      rw [opened, foundValue]
      rfl

theorem membersFrom_next (key : nextKey first text = .ok (some name, afterKey))
    (value : (choose name gathered).run afterKey = .ok (extended, rest)) :
    membersFrom choose gathered first text = membersFrom choose extended false rest := by
  rw [membersFrom_eq choose gathered first text, key]
  show ((choose name gathered).run afterKey).bind _ = _
  rw [value]
  rfl

theorem membersFrom_end (key : nextKey first text = .ok (none, rest)) :
    membersFrom choose gathered first text = .ok (gathered, rest) := by
  rw [membersFrom_eq, key]
  rfl

/-- A key is found by its opening mark, behind what may stand before a member. -/
theorem nextKey_leads {lead : List Char} (leads : Leads first lead) (text : List Char) :
    nextKey first (lead ++ '"' :: text) = readKey text := by
  have startEq {blanks : List Char} (blank : blanks.all isBlank = true) :
      skipBlanks (blanks ++ '"' :: text) = '"' :: text := skipBlanks_append blank
  cases leads with
  | first blank => simp [nextKey, startEq blank]
  | @later before after beforeBlank afterBlank =>
      have comma : skipBlanks (before ++ ',' :: after ++ '"' :: text) =
          ',' :: (after ++ '"' :: text) := by
        rw [List.append_assoc]
        exact skipBlanks_append beforeBlank
      simp only [nextKey, comma]
      simp [startEq afterBlank]

/-- A spelled key is found behind what may stand before a member. -/
theorem nextKey_spelled {lead key : List Char} (leads : Leads first lead) (named : IsText key name)
    (rest : List Char) : nextKey first (lead ++ (key ++ rest)) = .ok (some name, rest) := by
  obtain ⟨inside, rfl, spelled⟩ := named
  have keyEq : '"' :: (inside ++ ['"']) ++ rest = '"' :: (inside ++ '"' :: rest) := by simp
  rw [keyEq, nextKey_leads leads, readKey, readTextFrom_spelled [] spelled]
  simp

theorem nextKey_end {blanks : List Char} (all : blanks.all isBlank = true) (first : Bool)
    (rest : List Char) : nextKey first (blanks ++ '\x7d' :: rest) = .ok (none, rest) := by
  have startEq : skipBlanks (blanks ++ '\x7d' :: rest) = '\x7d' :: rest := skipBlanks_append all
  simp [nextKey, startEq]

end Objects

theorem readColon_blanks {gap : List Char} (gapBlank : gap.all isBlank = true)
    (rest : List Char) : readColon (gap ++ ':' :: rest) = .ok rest := by
  unfold readColon
  rw [skipBlanks_append gapBlank]
  rfl

/-- The value of a member is read behind its colon. -/
theorem run_member {α : Type} (reader : Reader α) {gap : List Char}
    (gapBlank : gap.all isBlank = true) (rest : List Char) :
    (member reader).run (gap ++ ':' :: rest) = reader.run rest := by
  simp only [member, readColon_blanks gapBlank]

theorem Reads.member {α : Type} {reader : Reader α} {text : List Char} {value : α}
    (reads : Reads reader text value) {gap room rest : List Char}
    (gapBlank : gap.all isBlank = true) (roomBlank : room.all isBlank = true)
    (ends : endsNumber rest = true) :
    (member reader).run (gap ++ ':' :: (room ++ (text ++ rest))) = .ok (value, rest) := by
  rw [run_member reader gapBlank]
  exact reads.run room rest roomBlank ends

/-- A reader takes a colon, blanks and then a text for a value. -/
def ReadsMember {α : Type} (reader : Reader α) (text : List Char) (value : α) : Prop :=
  ∀ blanks rest : List Char, blanks.all isBlank = true → endsNumber rest = true →
    reader.run (':' :: (blanks ++ (text ++ rest))) = .ok (value, rest)

namespace ReadsMember

variable {α β : Type} {reader : Reader α} {text : List Char} {value : α}

theorem of_reads (reads : Reads reader text value) : ReadsMember (member reader) text value := by
  intro blanks rest all ends
  exact reads.member List.all_nil all ends

theorem map (reads : ReadsMember reader text value) (change : α → β) :
    ReadsMember (reader.map change) text (change value) := by
  intro blanks rest all ends
  simp only [Reader.map, Reader.andThen, reads blanks rest all ends]

end ReadsMember

/-- Members, each with the blanks before its key and after its colon. -/
def memberText (lead gap : List Char) (entry : String × List Char) : List Char :=
  lead ++ (writeText entry.1 ++ ':' :: (gap ++ entry.2))

/-- Members behind another one, and the end of their object. -/
def laterMembers (lead gap tail : List Char) (members : List (String × List Char))
    (rest : List Char) : List Char :=
  (members.flatMap fun entry => ',' :: memberText lead gap entry) ++ (tail ++ '\x7d' :: rest)

/-- What is gathered from members one after the other, each read by the reader that its key and
what was gathered before it choose. -/
inductive Gathers {σ : Type} (choose : String → σ → Reader σ) :
    List (String × List Char) → σ → σ → Prop where
  | nil (gathered : σ) : Gathers choose [] gathered gathered
  | cons {name : String} {text : List Char} {members : List (String × List Char)}
      {gathered extended result : σ}
      (first : ReadsMember (choose name gathered) text extended)
      (rest : Gathers choose members extended result) :
      Gathers choose ((name, text) :: members) gathered result

section Members

variable {σ : Type} {choose : String → σ → Reader σ} {lead gap tail : List Char}
  {members : List (String × List Char)} {gathered result : σ}

theorem endsNumber_laterMembers (lead gap : List Char) (members : List (String × List Char))
    (tailBlank : tail.all isBlank = true) (rest : List Char) :
    endsNumber (laterMembers lead gap tail members rest) = true := by
  cases members with
  | nil =>
      show endsNumber (tail ++ '\x7d' :: rest) = true
      exact endsNumber_blanks tailBlank rfl
  | cons entry members => rfl

theorem membersFrom_later (leadBlank : lead.all isBlank = true) (gapBlank : gap.all isBlank = true)
    (tailBlank : tail.all isBlank = true) (gathers : Gathers choose members gathered result)
    (rest : List Char) :
    membersFrom choose gathered false (laterMembers lead gap tail members rest) =
      .ok (result, rest) := by
  induction gathers with
  | nil => exact membersFrom_end (nextKey_end tailBlank false rest)
  | cons first others inductionHypothesis =>
      next name text members gathered extended result =>
      have value := first gap _ gapBlank
        (endsNumber_laterMembers lead gap members tailBlank rest)
      have unfolded : laterMembers lead gap tail ((name, text) :: members) rest =
          ',' :: (lead ++ (writeText name ++
            ':' :: (gap ++ (text ++ laterMembers lead gap tail members rest)))) := by
        simp [laterMembers, memberText]
      have leads : Leads false (',' :: lead) := .later List.all_nil leadBlank
      have key := nextKey_spelled leads (isText_writeText name)
        (':' :: (gap ++ (text ++ laterMembers lead gap tail members rest)))
      rw [unfolded, ← List.cons_append, membersFrom_next key value]
      exact inductionHypothesis

/-- The members of a written object are read one after the other. -/
theorem membersFrom_written (leadBlank : lead.all isBlank = true)
    (gapBlank : gap.all isBlank = true) (tailBlank : tail.all isBlank = true)
    (gathers : Gathers choose members gathered result) (rest : List Char) :
    membersFrom choose gathered true
        ([','].intercalate (members.map (memberText lead gap)) ++ (tail ++ '\x7d' :: rest)) =
      .ok (result, rest) := by
  cases gathers with
  | nil => exact membersFrom_end (nextKey_end tailBlank true rest)
  | cons first others =>
      next name text members extended =>
      have value := first gap _ gapBlank
        (endsNumber_laterMembers lead gap members tailBlank rest)
      have unfolded :
          [','].intercalate (((name, text) :: members).map (memberText lead gap)) ++
              (tail ++ '\x7d' :: rest) =
            lead ++ (writeText name ++
              ':' :: (gap ++ (text ++ laterMembers lead gap tail members rest))) := by
        rw [List.map_cons, intercalate_cons, List.flatMap_map]
        simp [laterMembers, memberText]
      have key := nextKey_spelled (.first leadBlank) (isText_writeText name)
        (':' :: (gap ++ (text ++ laterMembers lead gap tail members rest)))
      rw [unfolded, membersFrom_next key value]
      exact membersFrom_later leadBlank gapBlank tailBlank others rest

end Members

/-- A written object is given to the reader of its members. -/
theorem run_record_writeObject {α : Type} {name : String}
    {ofElements ofMembers : List Char → Step α}
    (elementsShorter : ∀ {text rest : List Char} {value : α},
      ofElements text = .ok (value, rest) → rest.length ≤ text.length)
    (membersShorter : ∀ {text rest : List Char} {value : α},
      ofMembers text = .ok (value, rest) → rest.length ≤ text.length)
    (members : List (String × List Char)) {blanks : List Char}
    (all : blanks.all isBlank = true) (rest : List Char) :
    (record name ofElements ofMembers elementsShorter membersShorter).run
        (blanks ++ (writeObject members ++ rest)) =
      ofMembers
        ([','].intercalate (members.map (memberText [] [])) ++ ([] ++ '\x7d' :: rest)) := by
  have startEq : skipBlanks (blanks ++ (writeObject members ++ rest)) =
      '\x7b' :: ([','].intercalate (members.map (memberText [] [])) ++
        ([] ++ '\x7d' :: rest)) :=
    skipBlanks_enclosed '\x7b' '\x7d' rfl all ..
  simp only [record, startEq]

/-- A written object is read as a record by the reader of its members. -/
theorem reads_writeObject {α : Type} {name : String} {ofElements ofMembers : List Char → Step α}
    (elementsShorter : ∀ {text rest : List Char} {value : α},
      ofElements text = .ok (value, rest) → rest.length ≤ text.length)
    (membersShorter : ∀ {text rest : List Char} {value : α},
      ofMembers text = .ok (value, rest) → rest.length ≤ text.length)
    {members : List (String × List Char)} {value : α}
    (read : ∀ rest : List Char,
      ofMembers ([','].intercalate (members.map (memberText [] [])) ++ ([] ++ '\x7d' :: rest)) =
        .ok (value, rest)) :
    Reads (record name ofElements ofMembers elementsShorter membersShorter) (writeObject members)
      value where
  begins := rfl
  run := by
    intro blanks rest all _
    rw [run_record_writeObject elementsShorter membersShorter members all, read]

/-- The open layout is the compact one with blanks in it. -/
theorem writeOpenObject_eq (members : List (String × List Char)) :
    ∃ tail : List Char, tail.all isBlank = true ∧
      ∀ rest : List Char, writeOpenObject members ++ rest =
        '\x7b' :: ([','].intercalate (members.map (memberText ['\n', ' ', ' '] [' '])) ++
          (tail ++ '\x7d' :: rest)) := by
  have lineEq : (fun entry : String × List Char => writeMemberLine entry.1 entry.2) =
      memberText ['\n', ' ', ' '] [' '] := by
    funext entry
    simp [writeMemberLine, memberText]
  cases members with
  | nil => exact ⟨[], rfl, fun _ => rfl⟩
  | cons entry members =>
      refine ⟨['\n'], rfl, fun rest => ?_⟩
      unfold writeOpenObject
      rw [if_neg (by simp), lineEq]
      simp

end Keypad.Json
