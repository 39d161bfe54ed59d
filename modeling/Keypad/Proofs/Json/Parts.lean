import Keypad.Proofs.Json.Grammar
import Keypad.Proofs.Json.Nested

/-!
Contract: the parts of a well-formed array or object as a reader meets them, one after the other.

The blanks and the comma between two parts are taken to the part behind, and the last blanks to the
end.

Owns:
- parts one after the other, of any kind;
- that parts with blanks around them, between commas, are such parts;
- the elements of arrays and the members of objects.

Does not own: what readers make of the parts.
-/

namespace Keypad.Json

/-! ## Parts in a text -/

/-- The parts of a text one after the other. The flag tells whether no part stands before them. -/
inductive Holds {ε : Type} (isPart : List Char → ε → Prop) :
    Bool → List Char → List ε → Prop where
  | nil {first : Bool} {blanks : List Char} (blank : blanks.all isBlank = true) :
      Holds isPart first blanks []
  | cons {first : Bool} {lead text rest : List Char} {entry : ε} {entries : List ε}
      (leads : Leads first lead) (part : isPart text entry)
      (others : Holds isPart false rest entries) :
      Holds isPart first (lead ++ (text ++ rest)) (entry :: entries)

section Parts

variable {ε ι : Type} {isPart : List Char → ε → Prop} {items : List ι} {blanks : List Char}

theorem endsNumber_holds {entries : List ε} {inside : List Char} {closing : Char}
    (holds : Holds isPart false inside entries) (ends : ∀ rest, endsNumber (closing :: rest) = true)
    (rest : List Char) : endsNumber (inside ++ closing :: rest) = true := by
  cases holds with
  | nil blank => exact endsNumber_blanks blank (ends rest)
  | cons leads _ _ =>
      cases leads with
      | later beforeBlank _ =>
          rw [List.append_assoc, List.append_assoc]
          exact endsNumber_blanks beforeBlank rfl

theorem holds_later (piece : ι → Padded) (entry : ι → ε)
    (spaced : ∀ item ∈ items, (piece item).Spaced)
    (parts : ∀ item ∈ items, isPart (piece item).core (entry item))
    (blank : blanks.all isBlank = true) {gap : List Char} (gapBlank : gap.all isBlank = true) :
    Holds isPart false
      (gap ++ ((items.flatMap fun item => ',' :: (piece item).text) ++ blanks))
      (items.map entry) := by
  induction items generalizing gap with
  | nil =>
      apply Holds.nil
      rw [List.flatMap_nil, List.nil_append, List.all_append, gapBlank, blank]
      rfl
  | cons item items inductionHypothesis =>
      have others := inductionHypothesis
        (fun other isItem => spaced other (List.mem_cons_of_mem _ isItem))
        (fun other isItem => parts other (List.mem_cons_of_mem _ isItem))
        (spaced item List.mem_cons_self).after
      have leads : Leads false (gap ++ ',' :: (piece item).before) :=
        .later gapBlank (spaced item List.mem_cons_self).before
      have holds := Holds.cons leads (parts item List.mem_cons_self) others
      simpa [Padded.text] using holds

/-- Parts with blanks around them, between commas. -/
theorem holds_intercalate (piece : ι → Padded) (entry : ι → ε)
    (spaced : ∀ item ∈ items, (piece item).Spaced)
    (parts : ∀ item ∈ items, isPart (piece item).core (entry item))
    (blank : blanks.all isBlank = true) :
    Holds isPart true ([','].intercalate (items.map fun item => (piece item).text) ++ blanks)
      (items.map entry) := by
  cases items with
  | nil => exact .nil blank
  | cons item items =>
      have others := holds_later piece entry
        (fun other isItem => spaced other (List.mem_cons_of_mem _ isItem))
        (fun other isItem => parts other (List.mem_cons_of_mem _ isItem))
        blank (spaced item List.mem_cons_self).after
      have leads : Leads true (piece item).before := .first (spaced item List.mem_cons_self).before
      have holds := Holds.cons leads (parts item List.mem_cons_self) others
      rw [List.map_cons, intercalate_cons, List.flatMap_map]
      simpa [Padded.text] using holds

end Parts

/-- A part of an array. -/
def IsElement (text element : List Char) : Prop := text = element ∧ IsValue element

/-- A part of an object, given as its key and its value. -/
inductive IsMember : List Char → List Char × List Char → Prop where
  | mk {key gap room value : List Char} (isKey : IsString key) (gapBlank : gap.all isBlank = true)
      (roomBlank : room.all isBlank = true) (isValue : IsValue value) :
      IsMember (key ++ (gap ++ ':' :: (room ++ value))) (key, value)

theorem holds_arrayText {elements : List Padded} {blanks : List Char}
    (blank : blanks.all isBlank = true) (spaced : ∀ element ∈ elements, element.Spaced)
    (values : ∀ element ∈ elements, IsValue element.core) :
    ∃ inside, arrayText elements blanks = '[' :: (inside ++ [']']) ∧
      Holds IsElement true inside (elements.map Padded.core) := by
  refine ⟨_, ?_, holds_intercalate id Padded.core spaced (fun element isElement => ?_) blank⟩
  · simp [arrayText]
  · exact ⟨rfl, values element isElement⟩

/-- The key and the value of a member without the blanks. -/
def MemberText.entry (member : MemberText) : List Char × List Char :=
  (member.key.core, member.value.core)

/-- A member as one part with blanks around it. -/
def MemberText.padded (member : MemberText) : Padded :=
  ⟨member.key.before,
    member.key.core ++ (member.key.after ++ ':' :: (member.value.before ++ member.value.core)),
    member.value.after⟩

theorem MemberText.padded_text (member : MemberText) : member.padded.text = member.text := by
  simp [padded, text, lead, Padded.text]

/-- The members of an object as a reader meets them. -/
theorem SpellsObject.holds {spelling : List Char} {members : List MemberText}
    (spelled : SpellsObject spelling members) :
    ∃ inside, spelling = '\x7b' :: (inside ++ ['\x7d']) ∧
      Holds IsMember true inside (members.map MemberText.entry) := by
  obtain ⟨blanks, blank, wellFormed, rfl⟩ := spelled
  have holds := holds_intercalate MemberText.padded MemberText.entry
    (fun member isMember => ⟨(wellFormed member isMember).keySpaced.before,
      (wellFormed member isMember).valueSpaced.after⟩)
    (fun member isMember => IsMember.mk (wellFormed member isMember).key
      (wellFormed member isMember).keySpaced.after (wellFormed member isMember).valueSpaced.before
      (wellFormed member isMember).value) blank
  simp only [MemberText.padded_text] at holds
  refine ⟨_, ?_, holds⟩
  simp [objectText]

end Keypad.Json
