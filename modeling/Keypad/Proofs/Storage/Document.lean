import Keypad.Proofs.Json.Objects
import Keypad.Proofs.Storage.FileStore

/-!
Contract: what a file holds for a store is told by its text alone.

Owns:
- that the documents of slots are exactly the objects of texts, of whose members the last of a name
  counts;
- the map that a file holds, and that opening a path finds it.

Does not own: changes of a store.
-/

namespace Keypad

open Json

namespace Slots

/-- The slots of some entries; a later text of the same name replaces an earlier one. -/
def ofEntries (entries : List (String × String)) : Slots :=
  entries.foldl (fun slots entry => slots.insert entry.1 entry.2) .empty

theorem get?_ofEntries (entries : List (String × String)) :
    (ofEntries entries).get? = fun name => entries.reverse.lookup name := by
  -- From the end, since there stands the entry of a name that counts.
  induction entries using List.reverseRecOn with
  | nil => rfl
  | append_singleton entries entry inductionHypothesis =>
      obtain ⟨last, value⟩ := entry
      have split : ofEntries (entries ++ [(last, value)]) =
          (ofEntries entries).insert last value := by
        simp [ofEntries]
      funext name
      rw [split, List.reverse_append, List.reverse_singleton, List.singleton_append]
      by_cases same : name = last
      · rw [same, get?_insert, List.lookup_cons_self]
      · rw [get?_insert_of_ne _ _ same, inductionHypothesis, List.lookup_cons,
          beq_eq_false_iff_ne.mpr same]

/-- The reader of slots takes exactly the objects of texts. -/
theorem recognizes_reader :
    Recognizes reader fun spelling slots =>
      ∃ entries, IsObject IsText spelling entries ∧ slots = ofEntries entries where
  reads := by
    rintro spelling slots ⟨entries, ⟨inside, rfl, members⟩, rfl⟩
    refine ⟨rfl, fun blanks rest all _ => ?_⟩
    have startEq := skipBlanks_enclosed '\x7b' '\x7d' rfl all inside rest
    simp only [reader, startEq]
    exact (recognizes_text .text).membersFrom_spelled Slots.insert members .empty rest
  spelled := by
    intro text rest slots read
    simp only [reader] at read
    split at read
    next startEq =>
      obtain ⟨blanks, blank, rfl⟩ := exists_blanks_of_skipBlanks startEq
      obtain ⟨inside, entries, members, rfl, rfl⟩ :=
        (recognizes_text .text).spelled_membersFrom Slots.insert read
      have object : IsObject IsText ('\x7b' :: (inside ++ ['\x7d'])) entries :=
        ⟨inside, rfl, members⟩
      exact ⟨blanks, _, blank, ⟨entries, object, rfl⟩, by simp⟩
    · cases read

theorem decode_eq_ok_iff {text : String} {slots : Slots} :
    decode text = .ok slots ↔
      ∃ entries, IsDocument (IsObject IsText) text entries ∧ slots = ofEntries entries := by
  unfold decode
  rw [recognizes_reader.readAll_eq_ok_iff]
  constructor
  · rintro ⟨before, spelling, after, beforeBlank, afterBlank, ⟨entries, object, rfl⟩, textEq⟩
    exact ⟨entries, ⟨before, spelling, after, beforeBlank, afterBlank, object, textEq⟩, rfl⟩
  · rintro ⟨entries, ⟨before, spelling, after, beforeBlank, afterBlank, object, textEq⟩, rfl⟩
    exact ⟨before, spelling, after, beforeBlank, afterBlank, ⟨entries, object, rfl⟩, textEq⟩

end Slots

/-- A map from names to texts. -/
abbrev TextMap := String → Option String

namespace FileStore

variable {path : String} {store : FileStore} {disk : FileSystem}

/-- The map in the file under a path: the members of an object of texts, of which the last of a name
counts. Any other file holds none, and so does a path under which nothing is found. -/
structure Holds (disk : FileSystem) (path : String) (map : TextMap) : Prop where
  object : ∀ text entries, disk.readText (.ofText path) = .ok text →
    IsDocument (IsObject IsText) text entries → map = fun name => entries.reverse.lookup name
  otherwise : (∀ text entries, disk.readText (.ofText path) = .ok text →
    ¬ IsDocument (IsObject IsText) text entries) → map = fun _ => none

theorem openAt_eq_ok_iff :
    openAt disk path = .ok store ↔
      store.path = path ∧ store.disk = disk ∧ slotsOnDisk disk path = .ok store.slots := by
  unfold openAt
  constructor
  · intro opened
    split at opened
    next found =>
      cases opened
      exact ⟨rfl, rfl, found⟩
    · cases opened
  · rintro ⟨rfl, rfl, found⟩
    rw [found]

theorem slotsOfText_of_isDocument {text : String} {entries : List (String × String)}
    (document : IsDocument (IsObject IsText) text entries) :
    slotsOfText text = .ofEntries entries := by
  unfold slotsOfText
  rw [Slots.decode_eq_ok_iff.mpr ⟨entries, document, rfl⟩]

theorem slotsOfText_of_not_isDocument {text : String}
    (noDocument : ∀ entries, ¬ IsDocument (IsObject IsText) text entries) :
    slotsOfText text = .empty := by
  unfold slotsOfText
  split
  next decoded =>
    obtain ⟨entries, document, _⟩ := Slots.decode_eq_ok_iff.mp decoded
    exact absurd document (noDocument entries)
  · rfl

/-- The slots found under a path are the map that is held there. -/
theorem holds_of_slotsOnDisk {slots : Slots} (found : slotsOnDisk disk path = .ok slots) :
    Holds disk path slots.get? where
  object := by
    intro text entries read document
    unfold slotsOnDisk at found
    rw [if_pos (FileSystem.pathExists_of_readText read), read] at found
    cases found
    rw [slotsOfText_of_isDocument document, Slots.get?_ofEntries]
  otherwise := by
    intro noDocument
    unfold slotsOnDisk at found
    split at found
    · split at found
      next text read =>
        cases found
        rw [slotsOfText_of_not_isDocument fun entries => noDocument text entries read]
        rfl
      · cases found
    · cases found
      rfl

end FileStore

end Keypad
