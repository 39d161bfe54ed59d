import Keypad.Storage.FileSystem
import Mathlib.Data.List.Basic

/-!
Contract: what is written to a file is read from it again, and changes that leave the directories
standing keep every path to them.

Owns:
- what stands where after an entry was put somewhere;
- file systems that keep all directories of an earlier one, and what stays reachable in them;
- where a file can be written, and that it can be read and written again afterwards;
- that directories made once are found made.

Does not own: what files hold, deletion.
-/

namespace Keypad

namespace FileSystem

variable {fs before after : FileSystem} {path : Path} {here there location : Location}
  {directory : Location} {name : String}

/-! ## Entries -/

theorem entryAt?_put (fs : FileSystem) (nonempty : location ≠ []) (entry : Entry) :
    (fs.put location entry).entryAt? location = some entry := by
  unfold entryAt? put
  rw [if_neg (by simpa using nonempty)]
  simp [Placed.of, Placed.isAt]

theorem entryAt?_put_of_ne {other : Location} (different : other ≠ location) (entry : Entry) :
    (fs.put location entry).entryAt? other = fs.entryAt? other := by
  have newAway : (Placed.of location entry).isAt other.length other = false := by
    rw [Placed.isAt_length]
    exact decide_eq_false different.symm
  have sameFound : (fun placed : Placed =>
      decide ((!placed.isAt location.length location) = true ∧
        placed.isAt other.length other = true)) =
      fun placed => placed.isAt other.length other := by
    funext placed
    simp only [Placed.isAt_length]
    by_cases same : placed.location = other
    · simp [same, different]
    · simp [same]
  unfold entryAt? put
  simp only [List.find?_cons, newAway, List.find?_filter]
  rw [sameFound]

/-! ## Walks -/

/-- Where a name leads from a directory, unless it is too long. -/
def stepped? (here : Location) (name : String) : Option Location :=
  if name = "." then some here
  else if name = ".." then some here.tail
  else if nameLimit < name.utf8ByteSize then none
  else some (name :: here)

theorem walk_cons {names : List String} (stands : fs.entryAt? here = some .directory) :
    fs.walk here (name :: names) =
      match stepped? here name with
      | some next => fs.walk next names
      | none => .error .nameTooLong := by
  unfold stepped?
  rw [walk, stands]
  dsimp only
  split
  · rfl
  · split
    · rfl
    · split <;> rfl

theorem walk_cons_ok {names : List String} (walked : fs.walk here (name :: names) = .ok there) :
    fs.entryAt? here = some .directory ∧
      ∃ next, stepped? here name = some next ∧ fs.walk next names = .ok there := by
  cases stands : fs.entryAt? here with
  | none => simp [walk, stands] at walked
  | some entry =>
      cases entry with
      | file content => simp [walk, stands] at walked
      | directory =>
          rw [walk_cons stands] at walked
          split at walked
          next next stepped => exact ⟨rfl, next, stepped, walked⟩
          · simp at walked

/-- A walk goes on where an earlier one ended. -/
theorem walk_append {names : List String} (walked : fs.walk here names = .ok there)
    (more : List String) : fs.walk here (names ++ more) = fs.walk there more := by
  induction names generalizing here with
  | nil =>
      cases walked
      rfl
  | cons name names inductionHypothesis =>
      obtain ⟨stands, next, stepped, walkedOn⟩ := walk_cons_ok walked
      rw [List.cons_append, walk_cons stands, stepped]
      exact inductionHypothesis walkedOn

/-! ## Standing directories -/

/-- A file system that has all directories of an earlier one. -/
structure KeepsDirectories (before after : FileSystem) : Prop where
  workingDirectory : after.workingDirectory = before.workingDirectory
  entry : ∀ location, before.entryAt? location = some .directory →
    after.entryAt? location = some .directory

namespace KeepsDirectories

theorem refl (fs : FileSystem) : KeepsDirectories fs fs := ⟨rfl, fun _ stands => stands⟩

theorem trans {middle : FileSystem} (first : KeepsDirectories before middle)
    (second : KeepsDirectories middle after) : KeepsDirectories before after :=
  ⟨second.workingDirectory.trans first.workingDirectory,
    fun location stands => second.entry location (first.entry location stands)⟩

/-- A directory may be put anywhere, and anything where no directory stood. -/
theorem put {entry : Entry} (nonempty : location ≠ [])
    (free : entry = .directory ∨ fs.entryAt? location ≠ some .directory) :
    KeepsDirectories fs (fs.put location entry) where
  workingDirectory := rfl
  entry := by
    intro other stands
    by_cases same : other = location
    · subst same
      rw [entryAt?_put fs nonempty]
      rcases free with rfl | noDirectory
      · rfl
      · exact absurd stands noDirectory
    · rw [entryAt?_put_of_ne same]
      exact stands

theorem start_eq (keeps : KeepsDirectories before after) (path : Path) :
    after.start path = before.start path := by
  unfold FileSystem.start
  rw [keeps.workingDirectory]

/-- A walk leads to the same place as before. -/
theorem walk (keeps : KeepsDirectories before after) {names : List String}
    (walked : before.walk here names = .ok there) : after.walk here names = .ok there := by
  induction names generalizing here with
  | nil => exact walked
  | cons name names inductionHypothesis =>
      obtain ⟨stands, next, stepped, walkedOn⟩ := walk_cons_ok walked
      rw [walk_cons (keeps.entry here stands), stepped]
      exact inductionHypothesis walkedOn

end KeepsDirectories

/-! ## Paths -/

/-- A path that an accepted text names, and the place that it leads to. -/
structure LeadsTo (fs : FileSystem) (path : Path) (location : Location) : Prop where
  accepted : refusal? path = none
  walked : fs.walk (fs.start path) path.names = .ok location

theorem LeadsTo.keeps (leads : LeadsTo before path location)
    (keeps : KeepsDirectories before after) : LeadsTo after path location where
  accepted := leads.accepted
  walked := by
    rw [keeps.start_eq]
    exact keeps.walk leads.walked

theorem LeadsTo.stat {entry : Entry} (leads : LeadsTo fs path location)
    (stands : fs.entryAt? location = some entry)
    (slash : entry = .directory ∨ path.trailingSlash = false) : fs.stat path = .ok entry := by
  have located : fs.locate path = .ok location := by
    unfold locate
    rw [leads.accepted]
    dsimp only
    rw [leads.walked]
    dsimp only
    rw [stands]
    cases entry with
    | directory => rfl
    | file content =>
        have noSlash := slash.resolve_left (by simp)
        simp [noSlash]
  unfold FileSystem.stat
  rw [located]
  dsimp only
  rw [stands]

theorem leadsTo_of_locate (located : fs.locate path = .ok location) :
    LeadsTo fs path location := by
  unfold locate at located
  split at located
  · simp at located
  next accepted =>
    split at located
    · simp at located
    next reached walked =>
      have same : reached = location := by
        split at located
        · simp at located
        · cases located
          rfl
        · split at located
          · simp at located
          · cases located
            rfl
      exact ⟨accepted, same ▸ walked⟩

theorem isDirectory_iff :
    fs.isDirectory path = true ↔
      ∃ location, LeadsTo fs path location ∧ fs.entryAt? location = some .directory := by
  constructor
  · intro found
    cases located : fs.locate path with
    | error fault => simp [isDirectory, stat, located] at found
    | ok location =>
        refine ⟨location, leadsTo_of_locate located, ?_⟩
        cases stands : fs.entryAt? location with
        | none => simp [isDirectory, stat, located, stands] at found
        | some entry =>
            cases entry with
            | directory => rfl
            | file content => simp [isDirectory, stat, located, stands] at found
  · rintro ⟨location, leads, stands⟩
    unfold isDirectory
    rw [leads.stat stands (.inl rfl)]

theorem KeepsDirectories.isDirectory (keeps : KeepsDirectories before after)
    (found : before.isDirectory path = true) : after.isDirectory path = true := by
  obtain ⟨location, leads, stands⟩ := isDirectory_iff.mp found
  exact isDirectory_iff.mpr ⟨location, leads.keeps keeps, keeps.entry location stands⟩

/-! ## Targets -/

/-- A path that names something in a directory that stands. -/
structure Targets (fs : FileSystem) (path : Path) (directory : Location) (name : String) :
    Prop where
  accepted : refusal? path = none
  last : path.names.getLast? = some name
  walked : fs.walk (fs.start path) path.names.dropLast = .ok directory
  stands : fs.entryAt? directory = some .directory
  plain : ¬(name = "." ∨ name = "..")

theorem Targets.target (targets : Targets fs path directory name) :
    fs.target path = .ok (.inside directory name) := by
  unfold FileSystem.target
  rw [targets.accepted, targets.last]
  dsimp only
  rw [targets.walked]
  dsimp only
  rw [targets.stands]
  dsimp only
  rw [if_neg targets.plain]

theorem targets_of_target (targeted : fs.target path = .ok (.inside directory name)) :
    Targets fs path directory name := by
  unfold target at targeted
  split at targeted
  · simp at targeted
  · simp at targeted
  next accepted last =>
    split at targeted
    · simp at targeted
    next walked =>
      split at targeted
      · simp at targeted
      · simp at targeted
      next stands =>
        split at targeted
        · simp at targeted
        next plain =>
          cases targeted
          exact ⟨accepted, last, walked, stands, plain⟩

theorem Targets.keeps (targets : Targets before path directory name)
    (keeps : KeepsDirectories before after) : Targets after path directory name where
  accepted := targets.accepted
  last := targets.last
  walked := by
    rw [keeps.start_eq]
    exact keeps.walk targets.walked
  stands := keeps.entry directory targets.stands
  plain := targets.plain

theorem Targets.leadsTo (targets : Targets fs path directory name)
    (short : ¬nameLimit < name.utf8ByteSize) : LeadsTo fs path (name :: directory) where
  accepted := targets.accepted
  walked := by
    have stepped : stepped? directory name = some (name :: directory) := by
      have plain := not_or.mp targets.plain
      unfold stepped?
      rw [if_neg plain.1, if_neg plain.2, if_neg short]
    rw [← List.dropLast_append_getLast? name targets.last, walk_append targets.walked,
      walk_cons targets.stands, stepped]
    rfl

/-! ## Making directories -/

/-- A directory is made where nothing stood. -/
theorem exists_of_makeDirectory (made : fs.makeDirectory path = .ok after) :
    ∃ directory name, Targets fs path directory name ∧ ¬nameLimit < name.utf8ByteSize ∧
      fs.entryAt? (name :: directory) = none ∧ after = fs.put (name :: directory) .directory := by
  unfold makeDirectory at made
  split at made
  · simp at made
  · simp at made
  · simp at made
  next directory name targeted =>
    split at made
    · simp at made
    next short =>
      split at made
      · simp at made
      next free =>
        cases made
        exact ⟨directory, name, targets_of_target targeted, short, by simpa using free, rfl⟩

/-- A directory that was made stands where its path leads. -/
theorem makeDirectory_ok (made : fs.makeDirectory path = .ok after) :
    KeepsDirectories fs after ∧ after.isDirectory path = true ∧ fs.isDirectory path = false := by
  obtain ⟨directory, name, targets, short, free, rfl⟩ := exists_of_makeDirectory made
  have keeps : KeepsDirectories fs (fs.put (name :: directory) .directory) :=
    .put (List.cons_ne_nil _ _) (.inl rfl)
  refine ⟨keeps, ?_, ?_⟩
  · exact isDirectory_iff.mpr
      ⟨_, (targets.keeps keeps).leadsTo short, entryAt?_put fs (List.cons_ne_nil _ _) _⟩
  · rw [← Bool.not_eq_true, isDirectory_iff]
    rintro ⟨location, leads, stands⟩
    have same : Except.ok location = .ok (name :: directory) :=
      leads.walked.symm.trans (targets.leadsTo short).walked
    cases same
    simp [stands] at free

theorem ensureDirectory_ok (made : fs.ensureDirectory path = .ok after) :
    KeepsDirectories fs after ∧ after.isDirectory path = true := by
  unfold ensureDirectory at made
  split at made
  next changed isMade =>
    cases made
    exact ⟨(makeDirectory_ok isMade).1, (makeDirectory_ok isMade).2.1⟩
  · split at made
    next found =>
      cases made
      exact ⟨.refl fs, found⟩
    · simp at made

theorem ensureDirectory_of_isDirectory (found : fs.isDirectory path = true) :
    fs.ensureDirectory path = .ok fs := by
  unfold ensureDirectory
  split
  next changed made =>
    rw [(makeDirectory_ok made).2.2] at found
    cases found
  · rw [if_pos found]

/-- Of directories that were made, the first stands, and all that stood before still do. -/
theorem ensureDirectories_ok {paths : List Path}
    (made : fs.ensureDirectories paths = (.ok (), after)) :
    KeepsDirectories fs after ∧ ∀ path ∈ paths.head?, after.isDirectory path = true := by
  induction paths generalizing after with
  | nil =>
      cases made
      exact ⟨.refl fs, by simp⟩
  | cons path outer inductionHypothesis =>
      have first : ∀ {last : FileSystem}, last.isDirectory path = true →
          ∀ other ∈ (path :: outer).head?, last.isDirectory other = true := by
        rintro last found other ⟨⟩
        exact found
      unfold ensureDirectories at made
      split at made
      next changed isMade =>
        cases made
        exact ⟨(ensureDirectory_ok isMade).1, first (ensureDirectory_ok isMade).2⟩
      · split at made
        · simp at made
        next changed outerMade =>
          split at made
          next final isMade =>
            cases made
            exact ⟨(inductionHypothesis outerMade).1.trans (ensureDirectory_ok isMade).1,
              first (ensureDirectory_ok isMade).2⟩
          · simp at made
      · simp at made

theorem ensureDirectories_of_isDirectory {paths : List Path}
    (found : ∀ path ∈ paths.head?, fs.isDirectory path = true) :
    fs.ensureDirectories paths = (.ok (), fs) := by
  cases paths with
  | nil => rfl
  | cons path outer =>
      unfold ensureDirectories
      rw [ensureDirectory_of_isDirectory (found path rfl)]

/-- Directories that were made are found made, also when more has changed since. -/
theorem makeDirectories_again {later : FileSystem}
    (made : fs.makeDirectories path = (.ok (), after)) (keeps : KeepsDirectories after later) :
    later.makeDirectories path = (.ok (), later) := by
  apply ensureDirectories_of_isDirectory
  intro first isFirst
  exact keeps.isDirectory ((ensureDirectories_ok made).2 first isFirst)

/-! ## Writing -/

/-- A path at which a file can be written, whatever is written. -/
structure TakesFile (fs : FileSystem) (path : Path) (directory : Location) (name : String) :
    Prop where
  targets : Targets fs path directory name
  noSlash : path.trailingSlash = false
  short : ¬nameLimit < name.utf8ByteSize
  free : fs.entryAt? (name :: directory) ≠ some .directory

theorem TakesFile.writeBytes (takes : TakesFile fs path directory name) (content : ByteArray) :
    fs.writeBytes path content = .ok (fs.put (name :: directory) (.file content)) := by
  unfold FileSystem.writeBytes
  rw [takes.targets.target]
  dsimp only
  rw [if_neg (by simp [takes.noSlash]), if_neg takes.short, if_neg takes.free]

theorem exists_takesFile {content : ByteArray} (written : fs.writeBytes path content = .ok after) :
    ∃ directory name, TakesFile fs path directory name := by
  unfold FileSystem.writeBytes at written
  split at written
  · simp at written
  · simp at written
  · simp at written
  next directory name targeted =>
    split at written
    · simp at written
    next noSlash =>
      split at written
      · simp at written
      next short =>
        split at written
        · simp at written
        next free =>
          exact ⟨directory, name, targets_of_target targeted, by simpa using noSlash, short, free⟩

/-- After a file was written its directories stand, its content is read, and it can be written
again. -/
theorem TakesFile.put (takes : TakesFile fs path directory name) (content : ByteArray) :
    KeepsDirectories fs (fs.put (name :: directory) (.file content)) ∧
      (fs.put (name :: directory) (.file content)).stat path = .ok (.file content) ∧
      TakesFile (fs.put (name :: directory) (.file content)) path directory name := by
  have keeps : KeepsDirectories fs (fs.put (name :: directory) (.file content)) :=
    .put (List.cons_ne_nil _ _) (.inr takes.free)
  have stands := entryAt?_put fs (List.cons_ne_nil name directory) (.file content)
  have targets := takes.targets.keeps keeps
  refine ⟨keeps, (targets.leadsTo takes.short).stat stands (.inr takes.noSlash), ?_⟩
  exact ⟨targets, takes.noSlash, takes.short, by simp [stands]⟩

theorem fromUTF8?_toUTF8 (text : String) : String.fromUTF8? text.toUTF8 = some text :=
  dif_pos text.isValidUTF8

theorem readText_of_stat {text : String} (found : fs.stat path = .ok (.file text.toUTF8)) :
    fs.pathExists path = true ∧ fs.readText path = .ok text := by
  constructor
  · unfold pathExists
    rw [found]
  · unfold readText readBytes
    rw [found]
    dsimp only
    rw [fromUTF8?_toUTF8]

theorem pathExists_of_readText {text : String} (read : fs.readText path = .ok text) :
    fs.pathExists path = true := by
  unfold readText readBytes at read
  unfold pathExists
  cases stat : fs.stat path with
  | ok entry => rfl
  | error fault => simp [stat] at read

end FileSystem

end Keypad
