/-!
Contract: named texts, kept in the order of their names.

Owns:
- slots with distinct names in ascending order, so that equal contents are equal data;
- look-up, insertion and removal.

Does not own: files, documents.
-/

namespace Keypad

/-- Names with their texts, in ascending order of the names. -/
structure Slots where
  entries : List (String × String)
  ascending : entries.Pairwise fun left right => left.1 < right.1

namespace Slots

def empty : Slots := ⟨[], List.Pairwise.nil⟩

instance : EmptyCollection Slots := ⟨empty⟩
instance : Inhabited Slots := ⟨empty⟩

def size (slots : Slots) : Nat := slots.entries.length

def isEmpty (slots : Slots) : Bool := slots.entries.isEmpty

def get? (slots : Slots) (name : String) : Option String :=
  (slots.entries.find? fun entry => entry.1 = name).map Prod.snd

/-- Puts an entry at its place, over one of the same name. -/
def insertEntry (name value : String) : List (String × String) → List (String × String)
  | [] => [(name, value)]
  | entry :: rest =>
      if name < entry.1 then
        (name, value) :: entry :: rest
      else if name = entry.1 then
        (name, value) :: rest
      else
        entry :: insertEntry name value rest

theorem mem_insertEntry {name value : String} {entries : List (String × String)}
    {entry : String × String} (member : entry ∈ insertEntry name value entries) :
    entry = (name, value) ∨ entry ∈ entries := by
  induction entries with
  | nil => simpa [insertEntry] using member
  | cons first rest inductionHypothesis =>
      unfold insertEntry at member
      split at member
      · simpa using member
      · split at member
        · rcases List.mem_cons.mp member with isNew | inRest
          · exact Or.inl isNew
          · exact Or.inr (List.mem_cons_of_mem _ inRest)
        · rcases List.mem_cons.mp member with isFirst | inserted
          · exact Or.inr (isFirst ▸ List.mem_cons_self)
          · rcases inductionHypothesis inserted with isNew | inRest
            · exact Or.inl isNew
            · exact Or.inr (List.mem_cons_of_mem _ inRest)

theorem insertEntry_ascending {name value : String} {entries : List (String × String)}
    (ascending : entries.Pairwise fun left right => left.1 < right.1) :
    (insertEntry name value entries).Pairwise fun left right => left.1 < right.1 := by
  induction entries with
  | nil => simp [insertEntry]
  | cons first rest inductionHypothesis =>
      have parts := List.pairwise_cons.mp ascending
      unfold insertEntry
      split
      next before =>
        refine List.pairwise_cons.mpr ⟨fun entry member => ?_, ascending⟩
        rcases List.mem_cons.mp member with isFirst | inRest
        · exact isFirst ▸ before
        · exact String.lt_trans before (parts.1 entry inRest)
      next notBefore =>
        split
        next same =>
          exact List.pairwise_cons.mpr ⟨fun entry member => same ▸ parts.1 entry member, parts.2⟩
        next different =>
          refine List.pairwise_cons.mpr ⟨fun entry member => ?_, inductionHypothesis parts.2⟩
          rcases mem_insertEntry member with isNew | inRest
          · have reached : first.1 ≤ name := String.not_lt.mp notBefore
            exact isNew ▸ Std.lt_of_le_of_ne reached (Ne.symm different)
          · exact parts.1 entry inRest

/-- The slots with one text set. -/
def insert (slots : Slots) (name value : String) : Slots :=
  ⟨insertEntry name value slots.entries, insertEntry_ascending slots.ascending⟩

/-- The slots without one name. -/
def erase (slots : Slots) (name : String) : Slots :=
  ⟨slots.entries.filter fun entry => entry.1 ≠ name, slots.ascending.filter _⟩

end Slots

end Keypad
