import Keypad.Proofs.Storage.FileSystem
import Keypad.Proofs.Storage.Laws

/-!
Contract: what changes of files leave alone.

A change is confined to some paths when every entry is as before, or a file that one of the paths
names, or a directory that was missing on the way to one.

Owns:
- confinement of a change, and of changes one after the other;
- that making directories touches only missing ones of them, also when it fails half way;
- that a store in a file touches its file and the missing directories around it only.

Does not own: when a store is changed.
-/

namespace Keypad

/-- A path with a directory around it comes before that directory in its lineage. -/
theorem Path.lineage_of_parent? {path outer : Path} (around : path.parent? = some outer) :
    path.lineage = path :: outer.lineage := by
  rw [lineage]
  split
  next alone => simp [around] at alone
  next found =>
    cases around.symm.trans found
    rfl

namespace FileSystem

variable {files directories : List Path} {fs before middle after : FileSystem} {path : Path}

/-- What a change may do to the entry at a location. -/
inductive Touched (files directories : List Path) (before after : FileSystem)
    (location : Location) : Prop where
  | nothing (same : after.entryAt? location = before.entryAt? location)
  | file {path : Path} {content : ByteArray} (named : path ∈ files)
      (leads : LeadsTo after path location)
      (stands : after.entryAt? location = some (.file content))
  | directory {path : Path} (named : path ∈ directories) (leads : LeadsTo after path location)
      (missing : before.entryAt? location = none)
      (stands : after.entryAt? location = some .directory)

/-- A change that keeps all directories and touches nothing but given files and missing ones among
given directories. -/
structure Confined (files directories : List Path) (before after : FileSystem) : Prop where
  keeps : KeepsDirectories before after
  touched : ∀ location, Touched files directories before after location

namespace Confined

theorem refl (fs : FileSystem) : Confined files directories fs fs :=
  ⟨.refl fs, fun _ => .nothing rfl⟩

theorem mono {moreFiles moreDirectories : List Path}
    (confined : Confined files directories before after) (inFiles : files ⊆ moreFiles)
    (inDirectories : directories ⊆ moreDirectories) :
    Confined moreFiles moreDirectories before after where
  keeps := confined.keeps
  touched := by
    intro location
    cases confined.touched location with
    | nothing same => exact .nothing same
    | file named leads stands => exact .file (inFiles named) leads stands
    | directory named leads missing stands =>
        exact .directory (inDirectories named) leads missing stands

/-- What a first change has touched is as it left it, or touched again. -/
theorem trans (first : Confined files directories before middle)
    (second : Confined files directories middle after) :
    Confined files directories before after where
  keeps := first.keeps.trans second.keeps
  touched := by
    intro location
    cases second.touched location with
    | nothing same =>
        cases first.touched location with
        | nothing sameBefore => exact .nothing (same.trans sameBefore)
        | file named leads stands =>
            exact .file named (leads.keeps second.keeps) (same.trans stands)
        | directory named leads missing stands =>
            exact .directory named (leads.keeps second.keeps) missing (same.trans stands)
    | file named leads stands => exact .file named leads stands
    | directory named leads missing stands =>
        cases first.touched location with
        | nothing sameBefore =>
            exact .directory named leads (sameBefore.symm.trans missing) stands
        -- Where the first change has put something, the second one finds nothing missing.
        | file _ _ stood => simp [missing] at stood
        | directory _ _ _ stood => simp [missing] at stood

/-- Putting one entry touches its location only. -/
theorem put {location : Location} {entry : Entry}
    (keeps : KeepsDirectories fs (fs.put location entry))
    (touched : Touched files directories fs (fs.put location entry) location) :
    Confined files directories fs (fs.put location entry) where
  keeps := keeps
  touched := by
    intro other
    by_cases same : other = location
    · rw [same]
      exact touched
    · exact .nothing (entryAt?_put_of_ne same entry)

end Confined

/-! ## Making directories -/

theorem confined_makeDirectory (made : fs.makeDirectory path = .ok after) :
    Confined [] [path] fs after := by
  obtain ⟨directory, name, targets, short, free, rfl⟩ := exists_of_makeDirectory made
  have keeps : KeepsDirectories fs (fs.put (name :: directory) .directory) :=
    .put (List.cons_ne_nil _ _) (.inl rfl)
  have leads := (targets.keeps keeps).leadsTo short
  have stands := entryAt?_put fs (List.cons_ne_nil name directory) .directory
  exact .put keeps (.directory List.mem_cons_self leads free stands)

theorem confined_ensureDirectory (made : fs.ensureDirectory path = .ok after) :
    Confined [] [path] fs after := by
  unfold ensureDirectory at made
  split at made
  next changed isMade =>
    cases made
    exact confined_makeDirectory isMade
  · split at made
    · cases made
      exact .refl fs
    · cases made

/-- Also directories that were made before one could not be made are among those asked for. -/
theorem confined_ensureDirectories (fs : FileSystem) (paths : List Path) :
    Confined [] paths fs (fs.ensureDirectories paths).2 := by
  induction paths with
  | nil => exact .refl fs
  | cons path outer inductionHypothesis =>
      have outermost : Confined [] (path :: outer) fs (fs.ensureDirectories outer).2 :=
        inductionHypothesis.mono (List.Subset.refl _) (List.subset_cons_self path outer)
      have first : ∀ {earlier later : FileSystem}, earlier.ensureDirectory path = .ok later →
          Confined [] (path :: outer) earlier later := fun made =>
        (confined_ensureDirectory made).mono (List.Subset.refl _) (by simp)
      unfold ensureDirectories
      split
      next made => exact first made
      · split
        next stopped =>
          rw [stopped] at outermost
          exact outermost
        next outerMade =>
          rw [outerMade] at outermost
          split
          next made => exact outermost.trans (first made)
          · exact outermost
      · exact .refl fs

/-! ## Writing -/

theorem confined_writeBytes {content : ByteArray}
    (written : fs.writeBytes path content = .ok after) : Confined [path] [] fs after := by
  obtain ⟨directory, name, takes⟩ := exists_takesFile written
  rw [takes.writeBytes] at written
  cases written
  have keeps := (takes.put content).1
  have leads := (takes.targets.keeps keeps).leadsTo takes.short
  have stands := entryAt?_put fs (List.cons_ne_nil name directory) (.file content)
  exact .put keeps (.file List.mem_cons_self leads stands)

end FileSystem

/-! ## Stores -/

namespace FileStore

/-- A change confined to the file under a path and the directories around it. -/
abbrev ConfinedTo (path : String) (before after : FileSystem) : Prop :=
  FileSystem.Confined [.ofText path] (Path.ofText path).lineage.tail before after

theorem confined_makeSurroundings (store : FileStore) :
    FileSystem.Confined [] (Path.ofText store.path).lineage.tail store.disk
      store.makeSurroundings.2 := by
  unfold makeSurroundings
  split
  · exact .refl store.disk
  next directory around =>
    split
    · exact .refl store.disk
    · rw [Path.lineage_of_parent? around]
      exact FileSystem.confined_ensureDirectories store.disk directory.lineage

/-- Writing the document touches nothing but the file and directories around it, whether it succeeds
or fails. -/
theorem confined_flush (store : FileStore) : ConfinedTo store.path store.disk store.flush.2.disk := by
  have surrounded : ConfinedTo store.path store.disk store.makeSurroundings.2 :=
    (confined_makeSurroundings store).mono (List.nil_subset _) (List.Subset.refl _)
  unfold flush
  split
  next stopped =>
    rw [stopped] at surrounded
    exact surrounded
  next made =>
    rw [made] at surrounded
    split
    next written =>
      exact surrounded.trans
        ((FileSystem.confined_writeBytes written).mono (List.Subset.refl _) (List.nil_subset _))
    · exact surrounded

end FileStore

/-- A store after changes: one in a file is still on its file, and has touched nothing else. -/
inductive Store.Confined : Store → Store → Prop where
  | memory (before after : MemoryStore) : Confined (.memory before) (.memory after)
  | file {before after : FileStore} (path : after.path = before.path)
      (disk : FileStore.ConfinedTo before.path before.disk after.disk) :
      Confined (.file before) (.file after)
  | unavailable (reason : String) : Confined (.unavailable reason) (.unavailable reason)

namespace Store

theorem Confined.refl (store : Store) : Confined store store := by
  cases store with
  | memory store => exact .memory store store
  | file store => exact .file rfl (.refl store.disk)
  | unavailable reason => exact .unavailable reason

theorem Confined.trans {first second third : Store} (left : Confined first second)
    (right : Confined second third) : Confined first third := by
  cases left with
  | memory before after =>
      cases right
      exact .memory before _
  | file path disk =>
      cases right with
      | file laterPath laterDisk =>
          rw [path] at laterDisk
          exact .file (laterPath.trans path) (disk.trans laterDisk)
  | unavailable reason => exact right

theorem confined_set (store : Store) (name value : String) :
    Confined store (store.set name value).2 := by
  cases store with
  | memory store => exact .memory _ _
  | file store =>
      exact .file (FileStore.path_flush { store with slots := store.slots.insert name value })
        (FileStore.confined_flush { store with slots := store.slots.insert name value })
  | unavailable reason => exact .unavailable reason

end Store

end Keypad
