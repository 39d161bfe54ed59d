import Keypad.Proofs.Json.Containers

/-!
Contract: objects whose members fill one field each, at most once.

A table lists the fields. The reader of a member is chosen by the table: a field that is filled is
refused, and a member of another name is passed over. Which fault is met first depends on the order
of the members, but whether there is one, and what is gathered otherwise, does not.

Owns:
- tables of fields, their choice of readers and the conditions on a table;
- that such objects make the same of a text wherever it stands;
- what is gathered from members in another order and with others of unknown names among them;
- whole texts under such readers.

Does not own: the tables of the calculator's records.
-/

namespace Keypad.Json

/-- A field of what is gathered: its key, how its value is read and where it is kept. -/
structure RecordField (σ : Type) where
  name : String
  Value : Type
  reader : Reader Value
  kept : σ → Option Value
  keep : Value → σ → σ

namespace RecordField

section Choice

variable {σ : Type}

/-- The reader of the member of a field, which is refused where the field is filled. -/
def once (field : RecordField σ) (key : String) (gathered : σ) : Reader σ :=
  if (field.kept gathered).isSome then
    .refuse (.misfit (.duplicateField key))
  else
    (member field.reader).map fun value => field.keep value gathered

/-- The reader that a table chooses for a key. -/
def choose : List (RecordField σ) → String → σ → Reader σ
  | [], _, gathered => (member skipped).map fun _ => gathered
  | field :: fields, key, gathered =>
      if key = field.name then field.once key gathered else choose fields key gathered

/-- Filling one field neither reads nor changes the other. -/
structure Independent (field other : RecordField σ) : Prop where
  kept_keep : ∀ value gathered, field.kept (other.keep value gathered) = field.kept gathered
  keep_kept : ∀ value gathered, other.kept (field.keep value gathered) = other.kept gathered
  keep_keep : ∀ value second gathered,
    field.keep value (other.keep second gathered) = other.keep second (field.keep value gathered)

theorem Independent.symm {field other : RecordField σ} (independent : field.Independent other) :
    other.Independent field :=
  ⟨independent.keep_kept, independent.kept_keep,
    fun second value gathered => (independent.keep_keep value second gathered).symm⟩

end Choice

/-- The conditions on a table: its readers are steady, what is kept is there, and no two fields
share a place. -/
structure IsTable {σ : Type} (fields : List (RecordField σ)) : Prop where
  steady : ∀ field ∈ fields, Steady field.reader
  filled : ∀ field ∈ fields, ∀ value gathered,
    (field.kept (field.keep value gathered)).isSome = true
  independent : fields.Pairwise Independent

/-! ## Steadiness -/

section Steadiness

variable {σ : Type} {field : RecordField σ} {fields : List (RecordField σ)} {text : List Char}

theorem gives_once (steady : Steady field.reader) (isValue : IsValue text) (key : String)
    (gathered : σ) :
    GivesMember (field.once key gathered) text
      (if (field.kept gathered).isSome then .error (.misfit (.duplicateField key))
        else (verdict field.reader text).map fun value => field.keep value gathered) := by
  unfold once
  split
  · exact givesMember_refuse _ text
  · exact (steady.gives isValue).member.map _

theorem gives_unknown (isValue : IsValue text) (gathered : σ) :
    GivesMember ((member skipped).map fun _ => gathered) text (.ok gathered) := by
  have passed : Gives skipped text (.ok ()) := gives_skipped isValue
  exact passed.member.map fun _ => gathered

/-- Every key chooses the reader of a field or passes the member over. -/
theorem choose_cases (fields : List (RecordField σ)) (key : String) :
    (∃ field ∈ fields, key = field.name ∧ ∀ gathered, choose fields key gathered =
        field.once key gathered) ∨
      (∀ field ∈ fields, key ≠ field.name) ∧ ∀ gathered, choose fields key gathered =
        (member skipped).map fun _ => gathered := by
  induction fields with
  | nil => exact .inr ⟨List.forall_mem_nil _, fun _ => rfl⟩
  | cons field fields inductionHypothesis =>
      by_cases isField : key = field.name
      · refine .inl ⟨field, List.mem_cons_self, isField, fun gathered => ?_⟩
        rw [choose, if_pos isField]
      have laterEq (gathered : σ) :
          choose (field :: fields) key gathered = choose fields key gathered := by
        rw [choose, if_neg isField]
      rcases inductionHypothesis with ⟨other, isOther, named, chosen⟩ | ⟨unknown, chosen⟩
      · exact .inl ⟨other, List.mem_cons_of_mem _ isOther, named,
          fun gathered => (laterEq gathered).trans (chosen gathered)⟩
      · exact .inr ⟨List.forall_mem_cons.mpr ⟨isField, unknown⟩,
          fun gathered => (laterEq gathered).trans (chosen gathered)⟩

theorem IsTable.steadyMember (table : IsTable fields) (key : String) (gathered : σ) :
    SteadyMember (choose fields key gathered) := by
  intro text isValue
  rcases choose_cases fields key with ⟨field, isField, _, chosen⟩ | ⟨_, chosen⟩
  · rw [chosen]
    exact ⟨_, gives_once (table.steady field isField) isValue key gathered⟩
  · rw [chosen]
    exact ⟨_, gives_unknown isValue gathered⟩

end Steadiness

/-! ## The order of the members -/

section Order

variable {σ : Type} {fields : List (RecordField σ)}

/-- What is gathered with the member of a field, if its value is read and the field is free. -/
def take (field : RecordField σ) (text : List Char) (gathered : σ) : Option σ :=
  if (field.kept gathered).isSome then none
  else (verdict field.reader text).toOption.map fun value => field.keep value gathered

/-- Two steps that can be made in either order. -/
def Commute (step other : σ → Option σ) : Prop :=
  ∀ gathered, (step gathered).bind other = (other gathered).bind step

theorem Commute.symm {step other : σ → Option σ} (commute : Commute step other) :
    Commute other step :=
  fun gathered => (commute gathered).symm

theorem commute_none (step : σ → Option σ) : Commute step fun _ => none := by
  intro gathered
  exact Option.bind_fun_none _

theorem commute_some (step : σ → Option σ) : Commute step some := by
  intro gathered
  exact Option.bind_fun_some _

/-- A field is filled at most once, whatever stands in the text. -/
theorem take_take_self {field : RecordField σ}
    (filled : ∀ value gathered, (field.kept (field.keep value gathered)).isSome = true)
    (text other : List Char) (gathered : σ) :
    (field.take text gathered).bind (field.take other) = none := by
  rw [Option.bind_eq_none_iff]
  intro extended taken
  unfold take at taken
  split at taken
  · cases taken
  · obtain ⟨value, _, rfl⟩ := Option.map_eq_some_iff.mp taken
    simp [take, filled]

theorem commute_take {field other : RecordField σ} (independent : field.Independent other)
    (text second : List Char) : Commute (field.take text) (other.take second) := by
  intro gathered
  have fieldKept := independent.kept_keep
  have otherKept := independent.keep_kept
  unfold take
  by_cases fieldFilled : (field.kept gathered).isSome = true <;>
    by_cases otherFilled : (other.kept gathered).isSome = true <;>
    cases (verdict field.reader text).toOption <;>
    cases (verdict other.reader second).toOption <;>
    simp [fieldFilled, otherFilled, fieldKept, otherKept, independent.keep_keep]

/-- What is gathered with one more member, if it is not refused. -/
def gather? (fields : List (RecordField σ)) (entry : List Char × List Char) (gathered : σ) :
    Option σ :=
  (gatherMember (choose fields) gathered entry).toOption

theorem gather?_of_verdict {entry : List Char × List Char} {name : String}
    (named : verdict (text .text) entry.1 = .ok name) (gathered : σ) :
    gather? fields entry gathered =
      (memberVerdict (choose fields name gathered) entry.2).toOption := by
  unfold gather? gatherMember
  rw [named]
  rfl

/-- A member of an unknown name changes nothing. -/
theorem gather?_unknown {entry : List Char × List Char} {name : String}
    (isValue : IsValue entry.2) (named : verdict (text .text) entry.1 = .ok name)
    (unknown : ∀ field ∈ fields, name ≠ field.name) (gathered : σ) :
    gather? fields entry gathered = some gathered := by
  rw [gather?_of_verdict named]
  rcases choose_cases fields name with ⟨field, isField, isName, _⟩ | ⟨_, chosen⟩
  · exact absurd isName (unknown field isField)
  · rw [chosen, (gives_unknown isValue gathered).memberVerdict_eq]
    rfl

/-- A member is refused for its key, fills a field, or changes nothing. -/
theorem IsTable.gather?_cases (table : IsTable fields) {entry : List Char × List Char}
    (isValue : IsValue entry.2) :
    (gather? fields entry = fun _ => none) ∨
      (∃ field ∈ fields, gather? fields entry = field.take entry.2) ∨
      gather? fields entry = some := by
  cases named : verdict (text .text) entry.1 with
  | error fault =>
      refine .inl (funext fun gathered => ?_)
      unfold gather? gatherMember
      rw [named]
      rfl
  | ok name =>
      rcases choose_cases fields name with ⟨field, isField, _, chosen⟩ | ⟨unknown, _⟩
      · refine .inr (.inl ⟨field, isField, funext fun gathered => ?_⟩)
        have gives := gives_once (table.steady field isField) isValue name gathered
        rw [gather?_of_verdict named, chosen, gives.memberVerdict_eq]
        unfold take
        split
        · rfl
        · cases verdict field.reader entry.2 <;> rfl
      · exact .inr (.inr (funext (gather?_unknown isValue named unknown)))

/-- Any two members can be gathered in either order. -/
theorem IsTable.commute_gather? (table : IsTable fields) {entry other : List Char × List Char}
    (isValue : IsValue entry.2) (isOther : IsValue other.2) :
    Commute (gather? fields entry) (gather? fields other) := by
  rcases table.gather?_cases isValue with refused | ⟨field, isField, fills⟩ | passed
  · rw [refused]
    exact (commute_none _).symm
  · rcases table.gather?_cases isOther with refused | ⟨second, isSecond, otherFills⟩ | passed
    · rw [refused]
      exact commute_none _
    · rw [fills, otherFills]
      by_cases same : field = second
      · intro gathered
        subst same
        rw [take_take_self (table.filled field isField),
          take_take_self (table.filled field isField)]
      · have symmetric : Std.Symm (@Independent σ) := ⟨fun _ _ => Independent.symm⟩
        exact commute_take (table.independent.forall isField isSecond same) entry.2 other.2
    · rw [passed]
      exact commute_some _
  · rw [passed]
    exact (commute_some _).symm

/-- A run through members, as a fold that stops where nothing is gathered any more. -/
theorem toOption_foldlM (entries : List (List Char × List Char)) (found : Result σ) :
    (found.bind fun gathered => entries.foldlM (gatherMember (choose fields)) gathered).toOption =
      entries.foldl (fun found entry => found.bind (gather? fields entry)) found.toOption := by
  induction entries generalizing found with
  | nil => cases found <;> rfl
  | cons entry entries inductionHypothesis =>
      have stepped : found.toOption.bind (gather? fields entry) =
          (found.bind fun gathered => gatherMember (choose fields) gathered entry).toOption := by
        cases found <;> rfl
      rw [List.foldl_cons, stepped, ← inductionHypothesis]
      cases found <;> rfl

theorem foldl_unknown {added : List (List Char × List Char)}
    (idle : ∀ entry ∈ added, gather? fields entry = some) (found : Option σ) :
    added.foldl (fun found entry => found.bind (gather? fields entry)) found = found := by
  induction added with
  | nil => rfl
  | cons entry added inductionHypothesis =>
      rw [List.foldl_cons, idle entry List.mem_cons_self, Option.bind_fun_some]
      exact inductionHypothesis fun other isOther => idle other (List.mem_cons_of_mem _ isOther)

/-- What is gathered in the end depends neither on the order of the members nor on members of
unknown names. -/
theorem IsTable.toOption_foldlM_perm (table : IsTable fields)
    {entries others added : List (List Char × List Char)}
    (values : ∀ entry ∈ others, IsValue entry.2) (rearranged : others.Perm (added ++ entries))
    (unknown : ∀ entry ∈ added, ∃ name, verdict (text .text) entry.1 = .ok name ∧
      ∀ field ∈ fields, name ≠ field.name) (start : σ) :
    (others.foldlM (gatherMember (choose fields)) start).toOption =
      (entries.foldlM (gatherMember (choose fields)) start).toOption := by
  have idle : ∀ entry ∈ added, gather? fields entry = some := by
    intro entry isAdded
    obtain ⟨name, named, isUnknown⟩ := unknown entry isAdded
    have isOther := rearranged.mem_iff.mpr (List.mem_append_left entries isAdded)
    exact funext (gather?_unknown (values entry isOther) named isUnknown)
  have commutes : ∀ entry ∈ others, ∀ other ∈ others, ∀ found : Option σ,
      (found.bind (gather? fields entry)).bind (gather? fields other) =
        (found.bind (gather? fields other)).bind (gather? fields entry) := by
    intro entry isEntry other isOther found
    cases found with
    | none => rfl
    | some gathered =>
        exact table.commute_gather? (values entry isEntry) (values other isOther) gathered
  calc (others.foldlM (gatherMember (choose fields)) start).toOption
      = others.foldl (fun found entry => found.bind (gather? fields entry)) (some start) :=
        toOption_foldlM others (.ok start)
    _ = (added ++ entries).foldl (fun found entry => found.bind (gather? fields entry))
          (some start) := rearranged.foldl_eq' commutes _
    _ = entries.foldl (fun found entry => found.bind (gather? fields entry)) (some start) := by
        rw [List.foldl_append, foldl_unknown idle]
    _ = (entries.foldlM (gatherMember (choose fields)) start).toOption :=
        (toOption_foldlM entries (.ok start)).symm

end Order

end RecordField

/-! ## Whole texts -/

/-- The other text is an object with the members of the text in any order, and with any others among
them whose keys are none of the known names. Blanks may stand elsewhere. -/
inductive Rearranges (known : List String) (text other : String) : Prop where
  | mk {members others : List MemberText} {added : List (List Char × List Char)}
      (spelled : IsDocument SpellsObject text members)
      (otherSpelled : IsDocument SpellsObject other others)
      (rearranged :
        (others.map MemberText.entry).Perm (added ++ members.map MemberText.entry))
      (unknown : ∀ entry ∈ added, ∃ name, IsText entry.1 name ∧ name ∉ known)

/-- A written object and one written with its members in another order and others among them. -/
theorem rearranges_writeObject {known : List String} {members others : List (String × List Char)}
    (added : List (String × List Char)) (rearranged : others.Perm (added ++ members))
    (values : ∀ entry ∈ added ++ members, IsValue entry.2)
    (unknown : ∀ entry ∈ added, entry.1 ∉ known) :
    Rearranges known (String.ofList (writeObject members))
      (String.ofList (writeObject others)) := by
  have written {entries : List (String × List Char)} (values : ∀ entry ∈ entries, IsValue entry.2) :
      IsDocument SpellsObject (String.ofList (writeObject entries))
        (entries.map MemberText.written) :=
    ⟨[], writeObject entries, [], rfl, rfl, spellsObject_writeObject values, by simp⟩
  have entryEq : MemberText.entry ∘ MemberText.written =
      fun entry => (writeText entry.1, entry.2) := rfl
  have sameEntries := rearranged.map fun entry => (writeText entry.1, entry.2)
  rw [List.map_append] at sameEntries
  apply Rearranges.mk (written fun entry isEntry => values entry (List.mem_append_right _ isEntry))
    (written fun entry isEntry => values entry (rearranged.mem_iff.mp isEntry))
  · rw [List.map_map, List.map_map, entryEq]
    exact sameEntries
  · refine List.forall_mem_map.mpr fun entry isAdded => ?_
    exact ⟨entry.1, isText_writeText entry.1, unknown entry isAdded⟩

section Texts

variable {α σ : Type} {fields : List (RecordField σ)} {reader : Reader α} {start : σ}
  {finish : σ → Result α}

/-- A reader gathers the members of an object by a table and then finishes. -/
def Follows (fields : List (RecordField σ)) (start : σ) (finish : σ → Result α)
    (reader : Reader α) : Prop :=
  ∀ (inside : List Char) (entries : List (List Char × List Char)),
    Holds IsMember true inside entries →
    Gives reader ('\x7b' :: (inside ++ ['\x7d']))
      ((entries.foldlM (gatherMember (RecordField.choose fields)) start).bind finish)

theorem RecordField.IsTable.steadyMembers (table : RecordField.IsTable fields) (start : σ) :
    SteadyMembers (membersFrom (RecordField.choose fields) start true) :=
  fun _ _ holds => ⟨_, membersFrom_holds table.steadyMember holds start⟩

theorem RecordField.IsTable.follows_record (table : RecordField.IsTable fields) {name : String}
    {ofElements : List Char → Step σ}
    (elementsShorter : ∀ {text rest : List Char} {value : σ},
      ofElements text = .ok (value, rest) → rest.length ≤ text.length)
    (membersShorter : ∀ {text rest : List Char} {value : σ},
      membersFrom (RecordField.choose fields) start true text = .ok (value, rest) →
        rest.length ≤ text.length) :
    Follows fields start finish ((record name ofElements
      (membersFrom (RecordField.choose fields) start true) elementsShorter membersShorter).andThen
        finish) :=
  fun _ _ holds => (gives_record elementsShorter membersShorter
    (membersFrom_holds table.steadyMember holds start)).andThen finish

theorem Follows.readAll (follows : Follows fields start finish reader) {text : String}
    {members : List MemberText} (spelled : IsDocument SpellsObject text members) :
    readAll reader text =
      ((members.map MemberText.entry).foldlM (gatherMember (RecordField.choose fields)) start).bind
        finish := by
  obtain ⟨before, spelling, after, beforeBlank, afterBlank, object, textEq⟩ := spelled
  obtain ⟨inside, rfl, holds⟩ := object.holds
  exact (follows inside _ holds).readAll beforeBlank afterBlank textEq

theorem IsText.verdict_eq {key : List Char} {name : String} (named : IsText key name)
    (expected : Expected) : verdict (text expected) key = .ok name :=
  (named.reads expected).gives.verdict_eq

theorem SpellsObject.isValue_entry {spelling : List Char} {members : List MemberText}
    (spelled : SpellsObject spelling members) {entry : List Char × List Char}
    (isEntry : entry ∈ members.map MemberText.entry) : IsValue entry.2 := by
  obtain ⟨_, _, wellFormed, _⟩ := spelled
  obtain ⟨member, isMember, rfl⟩ := List.mem_map.mp isEntry
  exact (wellFormed member isMember).value

theorem toOption_bind (found : Result σ) (finish : σ → Result α) :
    (found.bind finish).toOption =
      found.toOption.bind fun gathered => (finish gathered).toOption := by
  cases found <;> rfl

theorem eq_ok_iff_toOption (found : Result α) (value : α) :
    found = .ok value ↔ found.toOption = some value := by
  cases found <;> simp [Except.toOption]

/-- A rearranged text is read as the same value, or refused as well. -/
theorem RecordField.IsTable.readAll_iff (table : RecordField.IsTable fields)
    (follows : Follows fields start finish reader) {text other : String}
    (rearranges : Rearranges (fields.map RecordField.name) text other) (value : α) :
    readAll reader other = .ok value ↔ readAll reader text = .ok value := by
  cases rearranges with
  | @mk members others added spelled otherSpelled rearranged unknown =>
      have unknownKeys : ∀ entry ∈ added, ∃ name, verdict (Json.text .text) entry.1 = .ok name ∧
          ∀ field ∈ fields, name ≠ field.name := by
        intro entry isAdded
        obtain ⟨name, named, isUnknown⟩ := unknown entry isAdded
        refine ⟨name, named.verdict_eq .text, ?_⟩
        rintro field isField rfl
        exact isUnknown (List.mem_map_of_mem isField)
      have values : ∀ entry ∈ others.map MemberText.entry, IsValue entry.2 := by
        obtain ⟨_, _, _, _, _, object, _⟩ := otherSpelled
        exact fun entry isEntry => object.isValue_entry isEntry
      have gathered := table.toOption_foldlM_perm values rearranged unknownKeys start
      rw [eq_ok_iff_toOption, eq_ok_iff_toOption, follows.readAll spelled,
        follows.readAll otherSpelled, toOption_bind, toOption_bind, gathered]

end Texts

end Keypad.Json
