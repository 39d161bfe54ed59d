import Keypad.Storage.Path

/-!
Contract: the files and directories that the calculator and its surroundings share.

A file system is a value. An operation either answers with a cause or with the changed value; making
several directories at once may fail after some of them were made, so it gives back both.

Owns:
- looking up a path name by name;
- reading and writing whole files, making directories, deleting trees;
- taking over what is known of another file system, and what differs between two;
- the causes of failure and their wording.

Does not own: what files hold, permissions, links.
-/

namespace Keypad

/-- Why an operation on files failed. -/
inductive FileFault where
  | notFound
  | alreadyExists
  | notADirectory
  | isADirectory
  | nameTooLong
  | improperName
  | invalidText
  | unavailable (reason : String)
  deriving DecidableEq

namespace FileFault

def reason : FileFault → String
  | .notFound => "No such file or directory (os error 2)"
  | .alreadyExists => "File exists (os error 17)"
  | .notADirectory => "Not a directory (os error 20)"
  | .isADirectory => "Is a directory (os error 21)"
  | .nameTooLong => "File name too long (os error 36)"
  | .improperName => "file name contained an unexpected NUL byte"
  | .invalidText => "stream did not contain valid UTF-8"
  | .unavailable reason => reason

def message (fault : FileFault) : String := "I/O error: " ++ fault.reason

end FileFault

/-- A place in the tree: its name, then the names of the directories around it, up to the root. -/
abbrev Location := List String

inductive Entry where
  | directory
  | file (content : ByteArray)

instance : DecidableEq Entry
  | .directory, .directory => isTrue rfl
  | .directory, .file _ => isFalse nofun
  | .file _, .directory => isFalse nofun
  | .file left, .file right =>
      match ByteArray.instDecidableEq left right with
      | isTrue same => isTrue (congrArg Entry.file same)
      | isFalse different => isFalse fun same => different (Entry.file.inj same)

/-- Something below the root. The number of names that lead to it tells places of different depths
apart without a look at the names. -/
structure Placed where
  depth : Nat
  location : Location
  entry : Entry
  depth_eq : depth = location.length

/-- What is below the root, and the directory at which relative paths start. -/
structure FileSystem where
  workingDirectory : Location
  placed : List Placed

/-- The absolute path of a place. -/
def Location.path (location : Location) : Path := ⟨true, location.reverse⟩

namespace Placed

def of (location : Location) (entry : Entry) : Placed := ⟨location.length, location, entry, rfl⟩

/-- Whether something stands at a location of a given depth. -/
def isAt (placed : Placed) (depth : Nat) (location : Location) : Bool :=
  placed.depth = depth && placed.location = location

/-- The depth is only a quick first test. -/
theorem isAt_length (placed : Placed) (location : Location) :
    placed.isAt location.length location = decide (placed.location = location) := by
  unfold isAt
  rw [placed.depth_eq]
  by_cases same : placed.location = location <;> simp [same]

end Placed

/-- A directory and those around it. -/
def Location.directories : Location → List Placed
  | [] => []
  | name :: outer => .of (name :: outer) .directory :: Location.directories outer

namespace FileSystem

/-- Nothing but the working directory and the directories around it. -/
def bare (workingDirectory : Location) : FileSystem :=
  ⟨workingDirectory, workingDirectory.directories⟩

/-- The longest name, in bytes. -/
def nameLimit : Nat := 255

/-- The longest text of a path, in bytes. -/
def pathLimit : Nat := 4095

/-- What stands at a location; the root is always a directory. -/
def entryAt? (fs : FileSystem) (location : Location) : Option Entry :=
  if location.isEmpty then
    some .directory
  else
    let depth := location.length
    (fs.placed.find? fun placed => placed.isAt depth location).map Placed.entry

/-- The file system with an entry made or replaced. -/
def put (fs : FileSystem) (location : Location) (entry : Entry) : FileSystem :=
  let depth := location.length
  { fs with
    placed := .of location entry :: fs.placed.filter fun placed => !placed.isAt depth location }

/-! ## Paths -/

/-- Follows names from a location; everything on the way has to be a directory. What the last name
stands for need not exist. -/
def walk (fs : FileSystem) (here : Location) : List String → Except FileFault Location
  | [] => .ok here
  | name :: names =>
      match fs.entryAt? here with
      | none => .error .notFound
      | some (.file _) => .error .notADirectory
      | some .directory =>
          if name = "." then
            fs.walk here names
          else if name = ".." then
            fs.walk here.tail names
          else if nameLimit < name.utf8ByteSize then
            .error .nameTooLong
          else
            fs.walk (name :: here) names

/-- Where a path starts. -/
def start (fs : FileSystem) (path : Path) : Location :=
  if path.absolute then [] else fs.workingDirectory

/-- Why a path is turned down before anything is looked up. -/
def refusal? (path : Path) : Option FileFault :=
  if !path.isProper then
    some .improperName
  else if path.isEmpty then
    some .notFound
  else if pathLimit < path.size then
    some .nameTooLong
  else
    none

/-- The location of what a path names. After a slash at the end there has to be a directory. -/
def locate (fs : FileSystem) (path : Path) : Except FileFault Location :=
  match refusal? path with
  | some fault => .error fault
  | none =>
      match fs.walk (fs.start path) path.names with
      | .error fault => .error fault
      | .ok location =>
          match fs.entryAt? location with
          | none => .error .notFound
          | some .directory => .ok location
          | some (.file _) => if path.trailingSlash then .error .notADirectory else .ok location

/-- Where a path names something that need not exist: a directory that does, and a name in it. -/
inductive Target where
  | root
  | dots
  | inside (directory : Location) (name : String)

/-- The directory and the name to make or write at. -/
def target (fs : FileSystem) (path : Path) : Except FileFault Target :=
  match refusal? path, path.names.getLast? with
  | some fault, _ => .error fault
  | none, none => .ok .root
  | none, some name =>
      match fs.walk (fs.start path) path.names.dropLast with
      | .error fault => .error fault
      | .ok directory =>
          match fs.entryAt? directory with
          | none => .error .notFound
          | some (.file _) => .error .notADirectory
          | some .directory =>
              .ok (if name = "." ∨ name = ".." then .dots else .inside directory name)

/-! ## Queries -/

/-- What a path names. -/
def stat (fs : FileSystem) (path : Path) : Except FileFault Entry :=
  match fs.locate path with
  | .error fault => .error fault
  | .ok location =>
      match fs.entryAt? location with
      | some entry => .ok entry
      | none => .error .notFound

def pathExists (fs : FileSystem) (path : Path) : Bool :=
  match fs.stat path with
  | .ok _ => true
  | .error _ => false

def isDirectory (fs : FileSystem) (path : Path) : Bool :=
  match fs.stat path with
  | .ok .directory => true
  | _ => false

def readBytes (fs : FileSystem) (path : Path) : Except FileFault ByteArray :=
  match fs.stat path with
  | .ok (.file content) => .ok content
  | .ok .directory => .error .isADirectory
  | .error fault => .error fault

/-- Reads a file that holds a text. -/
def readText (fs : FileSystem) (path : Path) : Except FileFault String :=
  match fs.readBytes path with
  | .error fault => .error fault
  | .ok content =>
      match String.fromUTF8? content with
      | some text => .ok text
      | none => .error .invalidText

/-- The files below a directory, with the names that lead to them. -/
def filesBelow (fs : FileSystem) (directory : Location) : List (List String × ByteArray) :=
  fs.placed.filterMap fun
    | ⟨depth, location, .file content, _⟩ =>
        if directory.isSuffixOf location then
          some ((location.take (depth - directory.length)).reverse, content)
        else
          none
    | ⟨_, _, .directory, _⟩ => none

/-- What differs in a later file system, directories before what is in them. -/
def changesTo (before after : FileSystem) : List Placed :=
  after.placed.reverse.filter fun placed => before.entryAt? placed.location ≠ some placed.entry

/-! ## Changes -/

/-- Makes or replaces a file in a directory that exists. A slash at the end of the path asks for a
directory, whatever the name before it. -/
def writeBytes (fs : FileSystem) (path : Path) (content : ByteArray) :
    Except FileFault FileSystem :=
  match fs.target path with
  | .error fault => .error fault
  | .ok .root => .error .isADirectory
  | .ok .dots => .error .isADirectory
  | .ok (.inside directory name) =>
      if path.trailingSlash then
        .error .isADirectory
      else if nameLimit < name.utf8ByteSize then
        .error .nameTooLong
      else if fs.entryAt? (name :: directory) = some .directory then
        .error .isADirectory
      else
        .ok (fs.put (name :: directory) (.file content))

def writeText (fs : FileSystem) (path : Path) (text : String) : Except FileFault FileSystem :=
  fs.writeBytes path text.toUTF8

/-- Makes one directory in a directory that exists. -/
def makeDirectory (fs : FileSystem) (path : Path) : Except FileFault FileSystem :=
  match fs.target path with
  | .error fault => .error fault
  | .ok .root => .error .alreadyExists
  | .ok .dots => .error .alreadyExists
  | .ok (.inside directory name) =>
      if nameLimit < name.utf8ByteSize then
        .error .nameTooLong
      else if (fs.entryAt? (name :: directory)).isSome then
        .error .alreadyExists
      else
        .ok (fs.put (name :: directory) .directory)

/-- Makes a directory where there may be one already. -/
def ensureDirectory (fs : FileSystem) (path : Path) : Except FileFault FileSystem :=
  match fs.makeDirectory path with
  | .ok changed => .ok changed
  | .error fault => if fs.isDirectory path then .ok fs else .error fault

/-- Makes the first of some directories, each of which lies in the next, and of the others those
that it needs. -/
def ensureDirectories (fs : FileSystem) : List Path → Except FileFault Unit × FileSystem
  | [] => (.ok (), fs)
  | path :: outer =>
      match fs.ensureDirectory path with
      | .ok changed => (.ok (), changed)
      | .error .notFound =>
          match fs.ensureDirectories outer with
          | (.error fault, changed) => (.error fault, changed)
          | (.ok (), changed) =>
              match changed.ensureDirectory path with
              | .ok final => (.ok (), final)
              | .error fault => (.error fault, changed)
      | .error fault => (.error fault, fs)

/-- Makes a directory and the directories around it, as far as they are missing. -/
def makeDirectories (fs : FileSystem) (path : Path) : Except FileFault Unit × FileSystem :=
  fs.ensureDirectories path.lineage

/-- Puts what is known to stand at a path, unless the way there is not known. -/
def learn (fs : FileSystem) (path : Path) (entry : Entry) : FileSystem :=
  match fs.target path with
  | .ok (.inside directory name) => fs.put (name :: directory) entry
  | _ => fs

/-- Removes a file, or a directory with all below it. -/
def delete (fs : FileSystem) (path : Path) : FileSystem :=
  match fs.locate path with
  | .error _ => fs
  | .ok location =>
      { fs with placed := fs.placed.filter fun placed => !location.isSuffixOf placed.location }

end FileSystem

end Keypad
