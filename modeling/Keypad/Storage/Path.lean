/-!
Contract: paths of files as texts name them.

Owns:
- the pieces between the slashes of a path, and whether it starts at the root;
- the names among the pieces, and whether a slash follows the last name;
- the path of the directory that holds a file, and the paths that lead to it;
- the text of a path and its size, and joining a name to it.

Does not own: what exists under a path, how long a path may be.
-/

namespace Keypad

/-- A path, cut at its slashes. The slash that stands for the root is left out of the pieces; where
two slashes meet, the piece between them is empty. -/
structure Path where
  absolute : Bool
  pieces : List String
  deriving DecidableEq

namespace Path

/-- The parts of a text between its slashes. -/
def cut : List Char → List (List Char)
  | [] => [[]]
  | character :: rest =>
      if character = '/' then
        [] :: cut rest
      else
        match cut rest with
        | [] => [[character]]
        | first :: others => (character :: first) :: others

def ofText (text : String) : Path :=
  match text.toList with
  | '/' :: rest => ⟨true, (cut rest).map String.ofList⟩
  | other => ⟨false, (cut other).map String.ofList⟩

/-- The text of a path. -/
def text (path : Path) : String :=
  (if path.absolute then "/" else "") ++ "/".intercalate path.pieces

/-- The size of the text, in bytes. -/
def size (path : Path) : Nat := path.text.utf8ByteSize

/-- The pieces that name something; `.` and `..` are among them. -/
def names (path : Path) : List String := path.pieces.filter fun piece => !piece.isEmpty

/-- Whether a slash follows the last name. -/
def trailingSlash (path : Path) : Bool :=
  !path.names.isEmpty && path.pieces.getLast? = some ""

/-- The path that names nothing. -/
def isEmpty (path : Path) : Bool := !path.absolute && path.names.isEmpty

/-- No name holds the character that ends a path for the system. -/
def isProper (path : Path) : Bool := path.names.all fun name => !name.toList.contains '\x00'

/-! ## The directories around a path -/

/-- Whether a piece leads nowhere else. -/
def isIdle (piece : String) : Bool := piece.isEmpty || piece = "."

/-- The pieces up to the last one that is not idle. -/
def dropIdle : List String → List String
  | [] => []
  | piece :: rest =>
      match dropIdle rest with
      | [] => if isIdle piece then [] else [piece]
      | kept => piece :: kept

/-- The path without idle pieces at its end; a dot at the start of a relative path stays. -/
def trimmed : Path → Path
  | ⟨false, "." :: rest⟩ => ⟨false, "." :: dropIdle rest⟩
  | ⟨absolute, pieces⟩ => ⟨absolute, dropIdle pieces⟩

/-- The directory that holds what the path names; none for the root and for the empty path. -/
def parent? (path : Path) : Option Path :=
  if path.trimmed.pieces.isEmpty then
    none
  else
    some (trimmed ⟨path.absolute, path.trimmed.pieces.dropLast⟩)

theorem dropIdle_length (pieces : List String) : (dropIdle pieces).length ≤ pieces.length := by
  induction pieces with
  | nil => simp [dropIdle]
  | cons piece rest hypothesis =>
      unfold dropIdle
      split
      · split <;> simp
      · simpa using hypothesis

theorem trimmed_length (path : Path) : path.trimmed.pieces.length ≤ path.pieces.length := by
  unfold trimmed
  split
  · simpa using dropIdle_length _
  · exact dropIdle_length _

/-- A parent has fewer pieces. -/
theorem parent?_length {path outer : Path} (around : path.parent? = some outer) :
    outer.pieces.length < path.pieces.length := by
  unfold parent? at around
  split at around
  · cases around
  next named =>
    cases around
    have shortened := trimmed_length ⟨path.absolute, path.trimmed.pieces.dropLast⟩
    have bound := trimmed_length path
    have some_left : path.trimmed.pieces.length ≠ 0 := by
      simpa [List.length_eq_zero_iff] using named
    simp only [List.length_dropLast] at shortened
    omega

/-- The path and the directories around it, from the inside out, without the root and the empty
path. -/
def lineage (path : Path) : List Path :=
  match around : path.parent? with
  | none => []
  | some outer =>
      have _shorter := parent?_length around
      path :: outer.lineage
termination_by path.pieces.length

/-- The paths that a path leads through, itself included, the outermost first. -/
def stages (path : Path) : List Path :=
  (List.range path.names.length).map fun count => ⟨path.absolute, path.names.take (count + 1)⟩

/-- The text of a path with one more name. -/
def join (base name : String) : String :=
  if base.isEmpty ∨ base.toList.getLast? = some '/' then base ++ name else base ++ "/" ++ name

end Path

end Keypad
