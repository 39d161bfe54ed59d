import Keypad.Terminal.Program

/-!
Contract: the program on a real system.

The files that a run may look at are read before it starts. Lines are taken as they come in; after
each of them the new lines of output are printed and changed files are written.

Owns:
- the system's input, output, variables, accounts and files.

Does not own: any decision.
-/

namespace Keypad

/-- The system's number for reading a directory as if it were a file. -/
def readingDirectory : UInt32 := 21

/-- What stands at a path of the system, if that can be told. -/
def lookAt (path : String) : IO (Option Entry) := do
  try
    return some (.file (← IO.FS.readBinFile path))
  catch
    | .inappropriateType _ number _ =>
        return if number = readingDirectory then some .directory else none
    | _ => return none

/-- Looks at everything that a path leads through. -/
def observe (disk : FileSystem) (path : String) : IO FileSystem :=
  (Path.ofText path).stages.foldlM (fun known stage => do
    match ← lookAt stage.text with
    | some entry => return known.learn stage entry
    | none => return known) disk

/-- Writes what has changed from one file system to the next, as far as the system lets it. -/
def commit (before after : FileSystem) : IO Unit := do
  for placed in before.changesTo after do
    let path := placed.location.path.text
    try
      match placed.entry with
      | .directory => IO.FS.createDirAll path
      | .file content => IO.FS.writeBinFile path content
    catch _ => pure ()

/-- Takes input until it ends or is no longer wanted. -/
partial def takeInput (input output : IO.FS.Stream) (disk : FileSystem) (console : Console Store) :
    IO (Console Store) := do
  let bytes ← input.read 4096
  let next := if bytes.isEmpty then console.finish else console.takeBytes bytes.toList
  let printed := next.printed.toList.drop console.printed.size
  commit (console.session.store.diskAfter disk) (next.session.store.diskAfter disk)
  output.putStr (PrintedLine.output printed)
  output.flush
  if bytes.isEmpty ∨ next.ending.isSome then
    return next
  else
    takeInput input output disk next

/-- The home directory in the user's account, if the system's table of accounts has it. -/
def accountHome : IO (Option String) := do
  try
    let status ← IO.FS.lines "/proc/self/status"
    let accounts ← IO.FS.lines "/etc/passwd"
    let user := status.toList.findSome? fun line =>
      match line.splitOn "\t" with
      | "Uid:" :: user :: _ => some user
      | _ => none
    return accounts.toList.findSome? fun line =>
      match line.splitOn ":" with
      | _ :: _ :: owner :: _ :: _ :: home :: _ => if some owner = user then some home else none
      | _ => none
  catch _ => return none

/-- Looks a variable up. A home directory that is not set is the one in the user's account. -/
def lookUpVariable (name : String) : IO (Option String) := do
  match name, ← IO.getEnv name with
  | "HOME", none => accountHome
  | "HOME", some "" => accountHome
  | _, value => return value

/-- Runs the program and gives its exit status. -/
def runProgram (arguments : List String) : IO UInt32 := do
  let output ← IO.getStdout
  let environment ← Environment.gather lookUpVariable
  let here := Path.ofText (toString (← IO.currentDir))
  let bare := FileSystem.bare here.names.reverse
  let withSettings ← (Program.pathsRead arguments environment bare).foldlM observe bare
  let disk ← (Program.pathsRead arguments environment withSettings).foldlM observe bare
  let report ←
    match Program.prepare arguments environment disk with
    | .done report =>
        output.putStr report.output
        pure report
    | .typing console =>
        output.putStr console.output
        output.flush
        pure (Program.report (← takeInput (← IO.getStdin) output disk console) disk)
  for line in report.errorLine do
    IO.eprintln line
  return report.exitStatus

end Keypad

def main (arguments : List String) : IO UInt32 := Keypad.runProgram arguments
