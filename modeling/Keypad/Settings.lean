import Keypad.History.Slot
import Keypad.Number.Display
import Keypad.Storage.FileStore

/-!
Contract: the calculator's settings and their file.

Owns:
- the settings with their defaults;
- the document, written with every field and read with any of them left out;
- loading and saving, and the path of the store that the settings name.

Does not own: command-line options.
-/

namespace Keypad

open Json

/-- The settings of a calculator. -/
structure Settings where
  historySlot : String
  errorToken : String
  maxFractionDigits : UInt64
  storePath : Option String
  deriving DecidableEq

/-- Why settings could not be loaded or saved. -/
inductive SettingsFault where
  | file (cause : FileFault)
  | invalid (cause : Json.Fault)
  deriving DecidableEq

namespace SettingsFault

def message : SettingsFault → String
  | .file cause => cause.message
  | .invalid cause => "Invalid configuration: " ++ cause.message

/-- The wording of what lies behind the fault. -/
def cause : SettingsFault → String
  | .file cause => cause.reason
  | .invalid cause => cause.message

end SettingsFault

namespace Settings

def standard : Settings where
  historySlot := History.defaultSlot
  errorToken := "Error"
  maxFractionDigits := NumberFormat.standard.maxFractionDigits
  storePath := none

instance : Inhabited Settings := ⟨standard⟩

def numberFormat (settings : Settings) : NumberFormat := ⟨settings.maxFractionDigits⟩

/-- The path of the store: the configured one, else the usual one, which may be unknown. -/
def resolvedStorePath? (settings : Settings) (usual : Option String) : Option String :=
  match settings.storePath with
  | some path => some path
  | none => usual

/-! ## Document -/

def encode (settings : Settings) : List Char :=
  writeOpenObject
    [("history_key", writeText settings.historySlot),
      ("error_token", writeText settings.errorToken),
      ("max_fraction_digits", writeNatural settings.maxFractionDigits.toNat),
      ("store_path",
        match settings.storePath with
        | some path => writeText path
        | none => ['n', 'u', 'l', 'l'])]

/-- The fields met so far. -/
structure Fields where
  historySlot : Option String
  errorToken : Option String
  maxFractionDigits : Option UInt64
  storePath : Option (Option String)

namespace Fields

def none : Fields := ⟨.none, .none, .none, .none⟩

/-- The settings with the defaults for the fields left out. -/
def toSettings (fields : Fields) : Settings where
  historySlot := fields.historySlot.getD standard.historySlot
  errorToken := fields.errorToken.getD standard.errorToken
  maxFractionDigits := fields.maxFractionDigits.getD standard.maxFractionDigits
  storePath := fields.storePath.getD standard.storePath

/-- The reader of a field that has been met or not. -/
def once {α : Type} (key : String) (seen : Option α) (reader : Reader α)
    (keep : α → Fields) : Reader Fields :=
  if seen.isSome then
    .refuse (.misfit (.duplicateField key))
  else
    (member reader).map keep

/-- The reader of the member with the given key. -/
def choose (key : String) (fields : Fields) : Reader Fields :=
  if key = "history_key" then
    once key fields.historySlot (text .text) fun value => { fields with historySlot := some value }
  else if key = "error_token" then
    once key fields.errorToken (text .text) fun value => { fields with errorToken := some value }
  else if key = "max_fraction_digits" then
    once key fields.maxFractionDigits count fun value =>
      { fields with maxFractionDigits := some value }
  else if key = "store_path" then
    once key fields.storePath (optional (text .path)) fun value =>
      { fields with storePath := some value }
  else
    (member skipped).map fun _ => fields

/-- Reads the fields in order; those left out at the end are missing. -/
def ofElements (text : List Char) : Step Fields :=
  match nextElement (Json.text .text) true text with
  | .error fault => .error fault
  | .ok (historySlot, rest) =>
      match nextElement (Json.text .text) false rest with
      | .error fault => .error fault
      | .ok (errorToken, rest) =>
          match nextElement count false rest with
          | .error fault => .error fault
          | .ok (maxFractionDigits, rest) =>
              match nextElement (optional (Json.text .path)) false rest with
              | .error fault => .error fault
              | .ok (storePath, rest) =>
                  .ok (⟨historySlot, errorToken, maxFractionDigits, storePath⟩, rest)

theorem ofElements_length {text rest : List Char} {fields : Fields}
    (read : ofElements text = .ok (fields, rest)) : rest.length ≤ text.length := by
  unfold ofElements at read
  split at read
  · cases read
  next historySlot afterSlot slotRead =>
    have first := nextElement_length_le slotRead
    split at read
    · cases read
    next errorToken afterToken tokenRead =>
      have second := nextElement_length_le tokenRead
      split at read
      · cases read
      next maxFractionDigits afterDigits digitsRead =>
        have third := nextElement_length_le digitsRead
        split at read
        · cases read
        next storePath afterPath pathRead =>
          have fourth := nextElement_length_le pathRead
          cases read
          omega

end Fields

def reader : Reader Settings :=
  (record "CalculatorConfig" Fields.ofElements (membersFrom Fields.choose .none true)
    Fields.ofElements_length
    (fun read => Nat.le_of_lt (membersFrom_length read))).map Fields.toSettings

def decode (text : String) : Result Settings := readAll reader text

/-! ## File -/

/-- Reads settings from a file. -/
def load (disk : FileSystem) (path : String) : Except SettingsFault Settings :=
  match disk.readText (.ofText path) with
  | .error cause => .error (.file cause)
  | .ok text =>
      match decode text with
      | .ok settings => .ok settings
      | .error cause => .error (.invalid cause)

/-- Reads settings from a file; where nothing exists, they are the standard ones. -/
def loadOrStandard (disk : FileSystem) (path : String) : Except SettingsFault Settings :=
  if disk.pathExists (.ofText path) then load disk path else .ok standard

/-- Writes settings to a file in a directory that exists. -/
def save (settings : Settings) (disk : FileSystem) (path : String) :
    Except SettingsFault FileSystem :=
  match disk.writeText (.ofText path) (String.ofList settings.encode) with
  | .ok disk => .ok disk
  | .error cause => .error (.file cause)

end Settings

end Keypad
