import Keypad.Terminal.Environment

/-!
Contract: the options that a program is started with.

Arguments are read from left to right, and the first one out of order decides. Options that are not
among the arguments may be given by the environment.

Owns:
- the options with their names and variables;
- asking for help or for the version;
- every misuse of options, with its wording.

Does not own: what the options change in a run.
-/

namespace Keypad

/-- An option that takes a path. -/
inductive PathOption where
  | settings
  | store
  deriving DecidableEq

/-- An option that is given or not. -/
inductive Switch where
  | memory
  | history
  deriving DecidableEq

/-- What a program can tell about itself. -/
inductive Notice where
  | help
  | version
  deriving DecidableEq

inductive LongOption where
  | path (option : PathOption)
  | switch (switch : Switch)
  | notice (notice : Notice)
  deriving DecidableEq

/-- The options with their names. -/
def LongOption.names : List (String × LongOption) :=
  [("config", .path .settings), ("store", .path .store), ("memory", .switch .memory),
    ("history", .switch .history), ("help", .notice .help), ("version", .notice .version)]

/-- The options of one letter. -/
def Notice.ofLetter? : Char → Option Notice
  | 'h' => some .help
  | 'V' => some .version
  | _ => none

/-- Why arguments make no request. -/
inductive Misuse where
  | unexpectedArgument (argument : String)
  | missingValue (option : PathOption)
  | needlessValue (argument : String)
  | repeatedPath (option : PathOption)
  | repeatedSwitch (switch : Switch)
  | memoryWithStore
  deriving DecidableEq

def PathOption.spelling : PathOption → String
  | .settings => "--config"
  | .store => "--store"

def Switch.spelling : Switch → String
  | .memory => "--memory"
  | .history => "--history"

def Misuse.message : Misuse → String
  | .unexpectedArgument argument => "unexpected argument '" ++ argument ++ "' found"
  | .missingValue option => "a value is required for '" ++ option.spelling ++ "'"
  | .needlessValue argument => "no value can be given in '" ++ argument ++ "'"
  | .repeatedPath option => "'" ++ option.spelling ++ "' cannot be used multiple times"
  | .repeatedSwitch switch => "'" ++ switch.spelling ++ "' cannot be used multiple times"
  | .memoryWithStore =>
      "'" ++ Switch.memory.spelling ++ "' cannot be used with '" ++ PathOption.store.spelling ++ "'"

/-- An argument by its dashes. A single dash is a plain one. -/
inductive Argument where
  | terminator
  | long (name : String) (attached : Option String)
  | short (letter : Char)
  | plain
  deriving DecidableEq

/-- Takes an argument apart; what follows the first equals sign of a long one is attached to it. -/
def Argument.ofText (text : String) : Argument :=
  match text.toList with
  | ['-', '-'] => .terminator
  | '-' :: '-' :: body =>
      let name := String.ofList (body.takeWhile (· ≠ '='))
      match body.dropWhile (· ≠ '=') with
      | [] => .long name none
      | _ :: value => .long name (some (String.ofList value))
  | '-' :: letter :: _ => .short letter
  | _ => .plain

/-- What the options ask for. -/
structure Options where
  settingsPath : Option String
  storePath : Option String
  memory : Bool
  historyOnly : Bool
  deriving DecidableEq

/-- What a program is asked to do. -/
inductive Request where
  | start (options : Options)
  | notice (notice : Notice)
  deriving DecidableEq

namespace Options

/-- No options. -/
def none : Options := ⟨.none, .none, false, false⟩

instance : Inhabited Options := ⟨none⟩

def path? (options : Options) : PathOption → Option String
  | .settings => options.settingsPath
  | .store => options.storePath

def setPath (options : Options) (path : String) : PathOption → Options
  | .settings => { options with settingsPath := some path }
  | .store => { options with storePath := some path }

def isOn (options : Options) : Switch → Bool
  | .memory => options.memory
  | .history => options.historyOnly

def turnOn (options : Options) : Switch → Options
  | .memory => { options with memory := true }
  | .history => { options with historyOnly := true }

/-- Takes a path, which must not be empty, for an option that has none yet. -/
def takePath (options : Options) (option : PathOption) (path : String) : Except Misuse Options :=
  if path.isEmpty then
    .error (.missingValue option)
  else if (options.path? option).isSome then
    .error (.repeatedPath option)
  else
    .ok (options.setPath path option)

/-- Takes a switch that is not on yet. -/
def takeSwitch (options : Options) (switch : Switch) : Except Misuse Options :=
  if options.isOn switch then .error (.repeatedSwitch switch) else .ok (options.turnOn switch)

/-- Adds the options of the arguments. A notice is answered as soon as it is asked for, and a value
that is not attached to its option has to be a plain argument. -/
def scan (options : Options) : List String → Except Misuse Request
  | [] => .ok (.start options)
  | argument :: rest =>
      match Argument.ofText argument with
      | .terminator =>
          match rest with
          | [] => .ok (.start options)
          | extra :: _ => .error (.unexpectedArgument extra)
      | .plain => .error (.unexpectedArgument argument)
      | .short letter =>
          match Notice.ofLetter? letter with
          | some notice => .ok (.notice notice)
          | .none => .error (.unexpectedArgument argument)
      | .long name attached =>
          match LongOption.names.lookup name, attached with
          | .none, _ => .error (.unexpectedArgument argument)
          | some (.path option), some path =>
              match options.takePath option path with
              | .error misuse => .error misuse
              | .ok options => scan options rest
          | some (.path option), .none =>
              match rest with
              | [] => .error (.missingValue option)
              | path :: rest =>
                  if Argument.ofText path = .plain then
                    match options.takePath option path with
                    | .error misuse => .error misuse
                    | .ok options => scan options rest
                  else
                    .error (.missingValue option)
          | some _, some _ => .error (.needlessValue argument)
          | some (.switch switch), .none =>
              match options.takeSwitch switch with
              | .error misuse => .error misuse
              | .ok options => scan options rest
          | some (.notice notice), .none => .ok (.notice notice)

/-- Takes a path from the environment for an option that the arguments left out. -/
def completePath (options : Options) (option : PathOption) :
    Option String → Except Misuse Options
  | some path =>
      if (options.path? option).isSome then .ok options else options.takePath option path
  | .none => .ok options

/-- Adds the options that only the environment gives. -/
def complete (options : Options) (environment : Environment) : Except Misuse Options :=
  match options.completePath .settings environment.settingsPath with
  | .error misuse => .error misuse
  | .ok options => options.completePath .store environment.storePath

/-- Refuses options that contradict each other. -/
def check (options : Options) : Except Misuse Options :=
  if options.memory ∧ options.storePath.isSome then .error .memoryWithStore else .ok options

end Options

/-- The request that arguments make in an environment. -/
def Request.ofArguments (arguments : List String) (environment : Environment) :
    Except Misuse Request :=
  match Options.none.scan arguments with
  | .error misuse => .error misuse
  | .ok (.notice asked) => .ok (.notice asked)
  | .ok (.start options) =>
      match options.complete environment with
      | .error misuse => .error misuse
      | .ok options => options.check.map Request.start

end Keypad
