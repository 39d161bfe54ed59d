import Keypad.Storage.FileStore
import Keypad.Terminal.CommandLine
import Keypad.Terminal.Console

/-!
Contract: a run of the calculator as a program.

A run is prepared from its arguments, its environment and the files; then it either has nothing more
to do or takes keys from its input. It ends with a report.

Owns:
- the order of the steps that lead to a session, and which fault of theirs is told;
- the exit status and the error line;
- what the program tells about itself.

Does not own: the system's input, output and files.
-/

namespace Keypad

/-- Why a run fails. -/
inductive ProgramFault where
  | misuse (cause : Misuse)
  | settings (path : String) (cause : SettingsFault)
  | noStorePath
  | store (path : String) (cause : FileFault)
  | invalidInput
  | format (cause : FormatFault)
  deriving DecidableEq

namespace ProgramFault

/-- The causes of a fault, the outermost first, joined to one text. -/
def message : ProgramFault → String
  | .misuse cause => cause.message
  | .settings path cause =>
      "Failed to load configuration " ++ path ++ ": " ++ cause.message ++ ": " ++ cause.cause
  | .noStorePath => "Could not resolve preferences file: Could not find app data directory"
  | .store path cause =>
      "Failed to open preferences file " ++ path ++ ": " ++ cause.message ++ ": " ++ cause.reason
  | .invalidInput => FileFault.invalidText.reason
  | .format cause => cause.message

/-- What is written to the error output. -/
def errorLine : ProgramFault → String
  | .misuse cause => "error: " ++ cause.message
  | .format cause => cause.message
  | fault => "Error: " ++ fault.message

def exitStatus : ProgramFault → UInt32
  | .misuse _ => 2
  | .format _ => 101
  | _ => 1

end ProgramFault

/-- What a run leaves behind. -/
structure Report where
  output : String
  fault : Option ProgramFault
  disk : FileSystem

namespace Report

def exitStatus (report : Report) : UInt32 :=
  match report.fault with
  | none => 0
  | some fault => fault.exitStatus

def errorLine (report : Report) : Option String := report.fault.map ProgramFault.errorLine

end Report

/-- What the program tells about itself. -/
def Notice.text : Notice → String
  | .version => "keycalc 0.1.0\n"
  | .help =>
      "Keypad calculator with persisted history\n" ++
      "\n" ++
      "Usage: keycalc [OPTIONS]\n" ++
      "\n" ++
      "Options:\n" ++
      "      --config <CONFIG>  Configuration file (JSON) [env: KEYCALC_CONFIG]\n" ++
      "      --store <STORE>    Preferences file holding the history, overrides the configuration\n" ++
      "                         [env: KEYCALC_STORE]\n" ++
      "      --memory           Keep history in memory for this run only\n" ++
      "      --history          Print the calculation history and exit\n" ++
      "  -h, --help             Print help\n" ++
      "  -V, --version          Print version\n"

/-- The file system around a store as the store has left it. Stores that are not in files leave it
as it was. -/
def Store.diskAfter (store : Store) (disk : FileSystem) : FileSystem :=
  match store with
  | .file store => store.disk
  | _ => disk

namespace Program

/-- The settings of the configured file; without one they are the standard ones. -/
def configured (disk : FileSystem) (options : Options) : Except ProgramFault Settings :=
  match options.settingsPath with
  | none => .ok Settings.standard
  | some path => (Settings.load disk path).mapError (ProgramFault.settings path)

/-- The settings of a run. A path among the options replaces the path of the store. -/
def settings (disk : FileSystem) (options : Options) : Except ProgramFault Settings :=
  (configured disk options).map fun settings =>
    { settings with storePath := options.storePath.or settings.storePath }

/-- Opens the store that options and settings ask for, in a file at the usual path if they name
none. -/
def openStore (disk : FileSystem) (usual : Option String) (options : Options)
    (settings : Settings) : Except ProgramFault Store :=
  if options.memory then
    .ok (.memory .empty)
  else
    match settings.resolvedStorePath? usual with
    | none => .error .noStorePath
    | some path => ((FileStore.openAt disk path).map .file).mapError (ProgramFault.store path)

/-- Prepares the session of a run. -/
def openSession (disk : FileSystem) (environment : Environment) (options : Options) :
    Except ProgramFault (Session Store) :=
  match settings disk options with
  | .error fault => .error fault
  | .ok settings =>
      match openStore disk environment.usualStorePath? options settings with
      | .error fault => .error fault
      | .ok store => .ok (Session.start store settings)

/-- A run after its preparation. -/
inductive Stage where
  | done (report : Report)
  | typing (console : Console Store)

/-- Prepares a run. Help, the version and a history listing take no input. -/
def prepare (arguments : List String) (environment : Environment) (disk : FileSystem) : Stage :=
  match Request.ofArguments arguments environment with
  | .error misuse => .done ⟨"", some (.misuse misuse), disk⟩
  | .ok (.notice notice) => .done ⟨notice.text, none, disk⟩
  | .ok (.start options) =>
      match openSession disk environment options with
      | .error fault => .done ⟨"", some fault, disk⟩
      | .ok session =>
          if options.historyOnly then
            .done ⟨PrintedLine.output (Console.listing session), none, disk⟩
          else
            .typing (Console.start session)

/-- The paths under which a run looks for files before it takes input, as far as the files at hand
tell. -/
def pathsRead (arguments : List String) (environment : Environment) (disk : FileSystem) :
    List String :=
  match Request.ofArguments arguments environment with
  | .ok (.start options) =>
      let storePath :=
        match settings disk options with
        | .ok settings =>
            if options.memory then none
            else settings.resolvedStorePath? environment.usualStorePath?
        | .error _ => none
      options.settingsPath.toList ++ storePath.toList
  | _ => []

/-- The fault that an ending stands for. -/
def faultOfEnding : Ending → Option ProgramFault
  | .quit => none
  | .invalidText => some .invalidInput
  | .fault cause => some (.format cause)

/-- The report of a run whose input is used up or no longer wanted. -/
def report (console : Console Store) (disk : FileSystem) : Report where
  output := console.output
  fault := console.ending.bind faultOfEnding
  disk := console.session.store.diskAfter disk

/-- Runs the program on an input. -/
def run (arguments : List String) (environment : Environment) (disk : FileSystem)
    (input : List UInt8) : Report :=
  match prepare arguments environment disk with
  | .done report => report
  | .typing console => report (console.takeBytes input).finish disk

end Program

end Keypad
