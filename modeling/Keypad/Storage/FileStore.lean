import Keypad.Json.Layout
import Keypad.Json.Skip
import Keypad.Storage.KeyValueStore

/-!
Contract: a store of named texts in one JSON file.

Look-ups are answered from a copy in memory. A change goes to the copy first and then to the whole
file, so after a failed write the two differ until the next write or reload.

Owns:
- the document: an object of texts, one member a line in the order of the names;
- opening, reloading and changing the store;
- the path used when none is configured.

Does not own: what the texts mean.
-/

namespace Keypad

open Json

namespace Slots

/-- The document of the slots. -/
def encode (slots : Slots) : List Char :=
  writeOpenObject (slots.entries.map fun entry => (entry.1, writeText entry.2))

/-- The reader of a member: a later text of the same name replaces an earlier one. -/
def choose (name : String) (slots : Slots) : Reader Slots :=
  (member (text .text)).map fun value => slots.insert name value

/-- Reads an object whose members are all texts. -/
def reader : Reader Slots where
  run text :=
    match skipBlanks text with
    | '\x7b' :: rest => membersFrom choose .empty true rest
    | other => .error (wrongType .map other)
  shorter := by
    intro text rest value read
    have bound := skipBlanks_length text
    split at read
    next tail start =>
      have members := membersFrom_length read
      rw [start, List.length_cons] at bound
      omega
    · cases read

def decode (text : String) : Result Slots := readAll reader text

end Slots

/-- A store in a file, with the file system around it. -/
structure FileStore where
  path : String
  slots : Slots
  disk : FileSystem

namespace FileStore

/-- The slots that a file's text holds; a text that is no document of slots holds none. -/
def slotsOfText (text : String) : Slots :=
  match Slots.decode text with
  | .ok slots => slots
  | .error _ => .empty

/-- The slots found under a path; where nothing exists there are none. -/
def slotsOnDisk (disk : FileSystem) (path : String) : Except FileFault Slots :=
  if disk.pathExists (.ofText path) then
    match disk.readText (.ofText path) with
    | .ok text => .ok (slotsOfText text)
    | .error fault => .error fault
  else
    .ok .empty

/-- Opens the store under a path, without changing anything there. -/
def openAt (disk : FileSystem) (path : String) : Except FileFault FileStore :=
  match slotsOnDisk disk path with
  | .ok slots => .ok ⟨path, slots, disk⟩
  | .error fault => .error fault

/-- Reads the slots from disk again; after a fault the store is as before. -/
def reload (store : FileStore) : Except FileFault FileStore := openAt store.disk store.path

/-- Makes the directories around the file, as far as they are missing. -/
def makeSurroundings (store : FileStore) : Except FileFault Unit × FileSystem :=
  match (Path.ofText store.path).parent? with
  | none => (.ok (), store.disk)
  | some directory =>
      if directory.isEmpty then (.ok (), store.disk) else store.disk.makeDirectories directory

/-- Writes the whole document. -/
def flush (store : FileStore) : Except FileFault Unit × FileStore :=
  match store.makeSurroundings with
  | (.error fault, disk) => (.error fault, { store with disk })
  | (.ok (), disk) =>
      match disk.writeText (.ofText store.path) (String.ofList store.slots.encode) with
      | .ok disk => (.ok (), { store with disk })
      | .error fault => (.error fault, { store with disk })

def get (store : FileStore) (name : String) : Except FileFault (Option String) :=
  .ok (store.slots.get? name)

def set (store : FileStore) (name value : String) : Except FileFault Unit × FileStore :=
  flush { store with slots := store.slots.insert name value }

/-- Removes a slot; when there is none, nothing is written. -/
def remove (store : FileStore) (name : String) : Except FileFault Unit × FileStore :=
  if (store.slots.get? name).isSome then
    flush { store with slots := store.slots.erase name }
  else
    (.ok (), store)

instance : KeyValueStore FileStore := ⟨get, set, remove⟩

/-- The path used when none is configured: below the directory for a user's data, or else below the
home directory. Which directories these are, and whether there are any, is for the platform to
say. -/
def defaultPath? (dataDirectory homeDirectory : Option String) : Option String :=
  (dataDirectory.or homeDirectory).map fun directory =>
    Path.join (Path.join directory "KeyCalc") "preferences.json"

end FileStore

/-- The stores that a program may run on. -/
inductive Store where
  | memory (store : MemoryStore)
  | file (store : FileStore)
  | unavailable (reason : String)

namespace Store

def get : Store → String → Except FileFault (Option String)
  | .memory store, name => KeyValueStore.get store name
  | .file store, name => store.get name
  | .unavailable reason, _ => .error (.unavailable reason)

def set : Store → String → String → Except FileFault Unit × Store
  | .memory store, name, value =>
      let (outcome, store) := KeyValueStore.set store name value
      (outcome, .memory store)
  | .file store, name, value =>
      let (outcome, store) := store.set name value
      (outcome, .file store)
  | .unavailable reason, _, _ => (.error (.unavailable reason), .unavailable reason)

def remove : Store → String → Except FileFault Unit × Store
  | .memory store, name =>
      let (outcome, store) := KeyValueStore.remove store name
      (outcome, .memory store)
  | .file store, name =>
      let (outcome, store) := store.remove name
      (outcome, .file store)
  | .unavailable reason, _ => (.error (.unavailable reason), .unavailable reason)

instance : KeyValueStore Store := ⟨get, set, remove⟩

/-- Reads a file's slots again; other stores have nothing to read. -/
def reload : Store → Except FileFault Store
  | .file store => store.reload.map .file
  | other => .ok other

end Store

end Keypad
