import Keypad.Proofs.Json.Nested
import Keypad.Proofs.Storage.FileSystem
import Keypad.Proofs.Storage.Laws

/-!
Contract: a store in a file, once written, is opened again as the very store that wrote it.

Owns:
- that slots are read back from their document;
- stores that can be written, which does not depend on what they hold, and stay so;
- that a written store is opened again unchanged.

Does not own: what the texts in slots mean.
-/

namespace Keypad

open Json

namespace Slots

theorem ext {left right : Slots} (same : left.entries = right.entries) : left = right := by
  cases left
  cases right
  cases same
  rfl

/-- An entry whose name comes after all others is inserted at the end. -/
theorem insertEntry_append {name value : String} {entries : List (String × String)}
    (later : ∀ entry ∈ entries, entry.1 < name) :
    insertEntry name value entries = entries ++ [(name, value)] := by
  induction entries with
  | nil => rfl
  | cons first rest inductionHypothesis =>
      have isLater := later first List.mem_cons_self
      unfold insertEntry
      rw [if_neg (String.lt_asymm isLater), if_neg (Ne.symm (String.ne_of_lt isLater)),
        inductionHypothesis fun entry member => later entry (List.mem_cons_of_mem _ member)]
      rfl

/-- The members of a document gather the slots entry by entry. -/
theorem gathers_entries {gathered slots : Slots} {rest : List (String × String)}
    (parts : gathered.entries ++ rest = slots.entries) :
    Gathers choose (rest.map fun entry => (entry.1, writeText entry.2)) gathered slots := by
  induction rest generalizing gathered with
  | nil =>
      rw [List.append_nil] at parts
      rw [ext parts]
      exact .nil slots
  | cons entry rest inductionHypothesis =>
      have later : ∀ earlier ∈ gathered.entries, earlier.1 < entry.1 := by
        have ascending := slots.ascending
        rw [← parts, List.pairwise_append] at ascending
        exact fun earlier member => ascending.2.2 earlier member entry List.mem_cons_self
      have inserted : (gathered.insert entry.1 entry.2).entries = gathered.entries ++ [entry] :=
        insertEntry_append later
      refine .cons (.map (.of_reads (reads_writeText .text entry.2)) (gathered.insert entry.1)) ?_
      apply inductionHypothesis
      rw [inserted, List.append_assoc]
      exact parts

theorem beginsValue_encode (slots : Slots) : beginsValue slots.encode = true := by
  unfold encode writeOpenObject
  split <;> rfl

/-- The document of slots is read as the slots. -/
theorem reads_encode (slots : Slots) : Reads reader slots.encode slots where
  begins := beginsValue_encode slots
  run := by
    intro blanks rest all _
    obtain ⟨tail, tailBlank, written⟩ :=
      writeOpenObject_eq (slots.entries.map fun entry => (entry.1, writeText entry.2))
    have startEq : skipBlanks (blanks ++ (slots.encode ++ rest)) = slots.encode ++ rest := by
      rw [skipBlanks_append all]
      exact skipBlanks_of_beginsValue (beginsValue_encode slots) rest
    simp only [reader, startEq]
    rw [encode, written]
    exact membersFrom_written rfl rfl tailBlank (gathers_entries rfl) rest

theorem decode_encode (slots : Slots) : decode (String.ofList slots.encode) = .ok slots :=
  (reads_encode slots).readAll

end Slots

namespace FileStore

variable {store after : FileStore}

/-- The directories around the file, once made, are found made, also when more has changed since. -/
theorem makeSurroundings_again {made later : FileSystem}
    (surrounded : store.makeSurroundings = (.ok (), made))
    (keeps : FileSystem.KeepsDirectories made later) (slots : Slots) :
    makeSurroundings ⟨store.path, slots, later⟩ = (.ok (), later) := by
  unfold makeSurroundings at surrounded ⊢
  dsimp only
  split at surrounded
  · rfl
  next directory _ =>
    by_cases isEmpty : directory.isEmpty = true
    · rw [if_pos isEmpty]
    · rw [if_neg isEmpty] at surrounded ⊢
      exact FileSystem.makeDirectories_again surrounded keeps

/-- What a successful write of the document has done. -/
structure Flushed (store after : FileStore) : Prop where
  path : after.path = store.path
  slots : after.slots = store.slots
  surrounded : after.makeSurroundings = (.ok (), after.disk)
  found : after.disk.stat (.ofText after.path) =
    .ok (.file (String.ofList after.slots.encode).toUTF8)
  takesFile : ∃ directory name,
    FileSystem.TakesFile after.disk (.ofText after.path) directory name

/-- Where the directories stand and a file can be written, the document is written. -/
theorem flush_of_takesFile {made : FileSystem} {directory : Location} {name : String}
    (surrounded : store.makeSurroundings = (.ok (), made))
    (takes : FileSystem.TakesFile made (.ofText store.path) directory name) :
    store.flush = (.ok (), { store with
      disk := made.put (name :: directory)
        (.file (String.ofList store.slots.encode).toUTF8) }) := by
  unfold flush FileSystem.writeText
  rw [surrounded]
  dsimp only
  rw [takes.writeBytes]

theorem exists_takesFile_of_flush (flushed : store.flush = (.ok (), after)) :
    ∃ made directory name, store.makeSurroundings = (.ok (), made) ∧
      FileSystem.TakesFile made (.ofText store.path) directory name := by
  unfold flush at flushed
  split at flushed
  · simp at flushed
  next made surrounded =>
    split at flushed
    next written =>
      obtain ⟨directory, name, takes⟩ := FileSystem.exists_takesFile written
      exact ⟨made, directory, name, surrounded, takes⟩
    · simp at flushed

theorem flushed_of_flush (flushed : store.flush = (.ok (), after)) : Flushed store after := by
  obtain ⟨made, directory, name, surrounded, takes⟩ := exists_takesFile_of_flush flushed
  rw [flush_of_takesFile surrounded takes] at flushed
  cases flushed
  obtain ⟨keeps, found, takesAgain⟩ := takes.put (String.ofList store.slots.encode).toUTF8
  exact ⟨rfl, rfl, makeSurroundings_again surrounded keeps _, found, directory, name, takesAgain⟩

/-- A store that can be written, whatever it holds. -/
def IsWritable (store : FileStore) : Prop :=
  ∀ slots : Slots, (flush { store with slots }).1 = .ok ()

/-- Whether a store can be written does not depend on what it holds. -/
theorem isWritable_of_flush (flushed : store.flush.1 = .ok ()) : store.IsWritable := by
  intro slots
  have whole : store.flush = (.ok (), store.flush.2) := Prod.ext flushed rfl
  obtain ⟨made, directory, name, surrounded, takes⟩ := exists_takesFile_of_flush whole
  have sameSurroundings : makeSurroundings { store with slots } = (.ok (), made) := surrounded
  rw [flush_of_takesFile sameSurroundings takes]

/-- A store that was written can be written again. -/
theorem Flushed.isWritable (flushed : Flushed store after) : after.IsWritable := by
  obtain ⟨directory, name, takes⟩ := flushed.takesFile
  apply isWritable_of_flush
  rw [flush_of_takesFile flushed.surrounded takes]

/-- A store that was written is opened again as it is. -/
theorem Flushed.openAt (flushed : Flushed store after) :
    FileStore.openAt after.disk after.path = .ok after := by
  obtain ⟨there, read⟩ := FileSystem.readText_of_stat flushed.found
  unfold FileStore.openAt slotsOnDisk
  rw [if_pos there, read]
  dsimp only
  rw [slotsOfText, Slots.decode_encode]

/-- A change of a store that can be written succeeds, and leaves a store that can be written and that
is opened again as it is. -/
theorem set_of_isWritable (writable : store.IsWritable) (name value : String) :
    ∃ after, store.set name value = (.ok (), after) ∧ after.path = store.path ∧
      after.IsWritable ∧ FileStore.openAt after.disk after.path = .ok after := by
  have succeeded : (store.set name value).1 = .ok () := writable _
  have whole : store.set name value = (.ok (), (store.set name value).2) := Prod.ext succeeded rfl
  have flushed := flushed_of_flush whole
  exact ⟨_, whole, flushed.path, flushed.isWritable, flushed.openAt⟩

end FileStore

end Keypad
