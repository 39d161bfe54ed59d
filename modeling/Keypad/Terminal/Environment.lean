import Keypad.Storage.FileStore

/-!
Contract: what a program is told besides its arguments.

The directories of a user are for the platform to name. A run takes them as it is given them, and
where the platform names none, none is known.

Owns:
- the variables that stand in for options, and the directories of the user;
- the path of the store that follows from these directories;
- gathering all of it by looking variables up.

Does not own: the options, the system's variables and accounts.
-/

namespace Keypad

/-- What a program is told besides its arguments: the variables that stand in for options, and the
directories that the platform names for the user, those for data and the home directory. -/
structure Environment where
  settingsPath : Option String
  storePath : Option String
  dataDirectory : Option String
  homeDirectory : Option String
  deriving DecidableEq

namespace Environment

/-- The path of the store where none is asked for. -/
def usualStorePath? (environment : Environment) : Option String :=
  FileStore.defaultPath? environment.dataDirectory environment.homeDirectory

/-- Gathers an environment on a platform where variables name the directories: data are kept where
`XDG_DATA_HOME` says if that is absolute, else below the home directory. Where `HOME` is not set,
`lookUp` may answer for it with the directory of the user's account. -/
def gather {μ : Type → Type} [Monad μ] (lookUp : String → μ (Option String)) : μ Environment := do
  let dataHome := (← lookUp "XDG_DATA_HOME").filter fun path => (Path.ofText path).absolute
  let home := (← lookUp "HOME").filter fun path => !path.isEmpty
  return {
    settingsPath := ← lookUp "KEYCALC_CONFIG"
    storePath := ← lookUp "KEYCALC_STORE"
    dataDirectory := dataHome.or (home.map fun path => Path.join path ".local/share")
    homeDirectory := home }

end Environment

end Keypad
