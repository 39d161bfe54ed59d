import Keypad.Proofs.Json.Nested

/-!
Contract: texts of one kind of value are exactly those that its reader takes.

Owns:
- readers that take exactly the spelled values, with blanks before them;
- that the reader of strings is one;
- objects all of whose values are read by such a reader: what is gathered from them;
- whole texts under such a reader.

Does not own: records, whose members are read in different ways.
-/

namespace Keypad.Json

/-- A reader that takes exactly the spelled values, with blanks before them. -/
structure Recognizes {α : Type} (reader : Reader α) (spells : List Char → α → Prop) : Prop where
  reads : ∀ {spelling : List Char} {value : α},
    spells spelling value → Reads reader spelling value
  spelled : ∀ {text rest : List Char} {value : α}, reader.run text = .ok (value, rest) →
    ∃ blanks spelling, blanks.all isBlank = true ∧ spells spelling value ∧
      text = blanks ++ (spelling ++ rest)

theorem exists_blanks (text : List Char) :
    ∃ blanks, blanks.all isBlank = true ∧ text = blanks ++ skipBlanks text :=
  ⟨text.takeWhile isBlank, List.all_takeWhile, List.takeWhile_append_dropWhile.symm⟩

theorem exists_blanks_of_skipBlanks {text start : List Char} (startEq : skipBlanks text = start) :
    ∃ blanks, blanks.all isBlank = true ∧ text = blanks ++ start :=
  startEq ▸ exists_blanks text

theorem recognizes_text (expected : Expected) : Recognizes (text expected) IsText where
  reads := by
    intro spelling value spelled
    exact spelled.reads expected
  spelled := by
    intro text rest value read
    simp only [Json.text] at read
    split at read
    next tail startEq =>
      obtain ⟨blanks, blank, rfl⟩ := exists_blanks_of_skipBlanks startEq
      obtain ⟨spelling, spelled, spellingEq⟩ := isText_of_readTextFrom read
      exact ⟨blanks, spelling, blank, spelled, by rw [spellingEq]⟩
    · cases read

theorem exists_of_run_map {α β : Type} {reader : Reader α} {change : α → β}
    {text rest : List Char} {result : β}
    (read : (reader.map change).run text = .ok (result, rest)) :
    ∃ value, reader.run text = .ok (value, rest) ∧ change value = result := by
  simp only [Reader.map, Reader.andThen] at read
  split at read
  next value _ valueRead =>
    cases read
    exact ⟨value, valueRead, rfl⟩
  · cases read

/-! ## Members -/

section Members

variable {α σ : Type} {reader : Reader α} {spells : List Char → α → Prop}
  {text rest : List Char}

theorem spelled_of_readColon (read : readColon text = .ok rest) :
    ∃ gap, gap.all isBlank = true ∧ text = gap ++ ':' :: rest := by
  unfold readColon at read
  split at read
  · cases read
  next startEq =>
    cases read
    exact exists_blanks_of_skipBlanks startEq
  · cases read

theorem Recognizes.spelled_member (recognizes : Recognizes reader spells) {value : α}
    (read : (member reader).run text = .ok (value, rest)) :
    ∃ gap room spelling, gap.all isBlank = true ∧ room.all isBlank = true ∧
      spells spelling value ∧ text = gap ++ ':' :: (room ++ (spelling ++ rest)) := by
  simp only [Json.member] at read
  split at read
  next colon =>
    obtain ⟨gap, gapBlank, rfl⟩ := spelled_of_readColon colon
    obtain ⟨room, spelling, roomBlank, spelled, rfl⟩ := recognizes.spelled read
    exact ⟨gap, room, spelling, gapBlank, roomBlank, spelled, rfl⟩
  · cases read

theorem spelled_of_readKey {name : String} (read : readKey text = .ok (some name, rest)) :
    ∃ key, IsText key name ∧ '"' :: text = key ++ rest := by
  unfold readKey at read
  split at read
  next valueRead =>
    cases read
    exact isText_of_readTextFrom valueRead
  · cases read

theorem spelled_of_nextKey {first : Bool} {name : String}
    (next : nextKey first text = .ok (some name, rest)) :
    ∃ lead key, Leads first lead ∧ IsText key name ∧ text = lead ++ (key ++ rest) := by
  unfold nextKey at next
  split at next
  · cases next
  · cases next
  next character tail _ startEq =>
    obtain ⟨before, beforeBlank, rfl⟩ := exists_blanks_of_skipBlanks startEq
    split at next
    next isFirst =>
      subst isFirst
      split at next
      next isMark =>
        subst isMark
        obtain ⟨key, named, keyEq⟩ := spelled_of_readKey next
        exact ⟨before, key, .first beforeBlank, named, by rw [keyEq]⟩
      · cases next
    next isLater =>
      rw [Bool.not_eq_true] at isLater
      subst isLater
      split at next
      next isComma =>
        subst isComma
        split at next
        · cases next
        next keyStartEq =>
          obtain ⟨after, afterBlank, rfl⟩ := exists_blanks_of_skipBlanks keyStartEq
          obtain ⟨key, named, keyEq⟩ := spelled_of_readKey next
          refine ⟨before ++ ',' :: after, key, .later beforeBlank afterBlank, named, ?_⟩
          rw [keyEq]
          simp
        · cases next
      · cases next

theorem blank_of_nextKey {first : Bool} (next : nextKey first text = .ok (none, rest)) :
    ∃ blanks, blanks.all isBlank = true ∧ text = blanks ++ '\x7d' :: rest := by
  have notNone : ∀ {start}, readKey start ≠ .ok (none, rest) := by
    intro start read
    unfold readKey at read
    split at read <;> cases read
  unfold nextKey at next
  split at next
  · cases next
  next startEq =>
    cases next
    exact exists_blanks_of_skipBlanks startEq
  · split at next
    · split at next
      · exact absurd next notNone
      · cases next
    · split at next
      · split at next
        · cases next
        · exact absurd next notNone
        · cases next
      · cases next

theorem SpellsMembers.endsNumber {inside : List Char} {entries : List (String × α)}
    (members : SpellsMembers spells false inside entries) (rest : List Char) :
    endsNumber (inside ++ '\x7d' :: rest) = true := by
  cases members with
  | nil blank => exact endsNumber_blanks blank rfl
  | cons leads _ _ _ _ _ =>
      cases leads with
      | later beforeBlank _ =>
          rw [List.append_assoc, List.append_assoc]
          exact endsNumber_blanks beforeBlank rfl

/-- The members of an object are gathered in the order of the text. -/
theorem Recognizes.membersFrom_spelled (recognizes : Recognizes reader spells)
    (extend : σ → String → α → σ) {first : Bool} {inside : List Char}
    {entries : List (String × α)} (members : SpellsMembers spells first inside entries)
    (gathered : σ) (rest : List Char) :
    membersFrom (fun name gathered => (member reader).map (extend gathered name)) gathered first
        (inside ++ '\x7d' :: rest) =
      .ok (entries.foldl (fun gathered entry => extend gathered entry.1 entry.2) gathered,
        rest) := by
  induction members generalizing gathered with
  | nil blank => exact membersFrom_end (nextKey_end blank _ rest)
  | @cons first lead key gap room text others name value entries leads named gapBlank roomBlank
      spelled members inductionHypothesis =>
      have keyRead := nextKey_spelled leads named
        (gap ++ ':' :: (room ++ (text ++ (others ++ '\x7d' :: rest))))
      have valueRead := (recognizes.reads spelled).member gapBlank roomBlank
        (members.endsNumber rest)
      have memberRead : ((member reader).map (extend gathered name)).run
          (gap ++ ':' :: (room ++ (text ++ (others ++ '\x7d' :: rest)))) =
          .ok (extend gathered name value, others ++ '\x7d' :: rest) := by
        simp only [Reader.map, Reader.andThen, valueRead]
      have unfolded :
          lead ++ (key ++ (gap ++ ':' :: (room ++ (text ++ others)))) ++ '\x7d' :: rest =
            lead ++ (key ++ (gap ++ ':' :: (room ++ (text ++ (others ++ '\x7d' :: rest))))) := by
        simp
      rw [unfolded, membersFrom_next keyRead memberRead, inductionHypothesis]
      rfl

/-- What is gathered as an object comes from the members that the text spells. -/
theorem Recognizes.spelled_membersFrom (recognizes : Recognizes reader spells)
    (extend : σ → String → α → σ) {gathered result : σ} {first : Bool}
    (read : membersFrom (fun name gathered => (member reader).map (extend gathered name)) gathered
      first text = .ok (result, rest)) :
    ∃ inside entries, SpellsMembers spells first inside entries ∧
      text = inside ++ '\x7d' :: rest ∧
      result = entries.foldl (fun gathered entry => extend gathered entry.1 entry.2) gathered := by
  fun_induction membersFrom (fun name gathered => (member reader).map (extend gathered name))
    gathered first text with
  | case1 => cases read
  | case2 gathered first text afterBrace key =>
      cases read
      obtain ⟨blanks, blank, rfl⟩ := blank_of_nextKey key
      exact ⟨blanks, [], .nil blank, rfl, rfl⟩
  | case3 => cases read
  | case4 gathered first text name afterKey key extended afterValue value _ _ inductionHypothesis =>
      obtain ⟨lead, keyText, leads, named, rfl⟩ := spelled_of_nextKey key
      obtain ⟨found, memberRead, rfl⟩ := exists_of_run_map value
      obtain ⟨gap, room, spelling, gapBlank, roomBlank, spelled, rfl⟩ :=
        recognizes.spelled_member memberRead
      obtain ⟨inside, entries, members, rfl, rfl⟩ := inductionHypothesis read
      refine ⟨_, (name, found) :: entries,
        .cons leads named gapBlank roomBlank spelled members, ?_, rfl⟩
      simp

end Members

/-! ## Whole texts -/

/-- A whole text is read as a value exactly when it is a document for it. -/
theorem Recognizes.readAll_eq_ok_iff {α : Type} {reader : Reader α}
    {spells : List Char → α → Prop} (recognizes : Recognizes reader spells) {text : String}
    {value : α} : readAll reader text = .ok value ↔ IsDocument spells text value := by
  constructor
  · intro read
    unfold readAll at read
    split at read
    next found rest run =>
      split at read
      next onlyBlanks =>
        cases read
        obtain ⟨before, spelling, beforeBlank, spelled, textEq⟩ := recognizes.spelled run
        obtain ⟨after, afterBlank, restEq⟩ :=
          exists_blanks_of_skipBlanks (List.isEmpty_iff.mp onlyBlanks)
        rw [List.append_nil] at restEq
        subst restEq
        exact ⟨before, spelling, rest, beforeBlank, afterBlank, spelled, textEq⟩
      · cases read
    · cases read
  · rintro ⟨before, spelling, after, beforeBlank, afterBlank, spelled, textEq⟩
    exact (recognizes.reads spelled).gives.readAll beforeBlank afterBlank textEq

end Keypad.Json
