import Keypad.Json.NumberText
import Keypad.Text.Quoted

/-!
Contract: why a JSON text is refused.

A text is read in one pass, and the first problem met is the one reported.

Owns:
- the three classes of problem: the text ends early, it is malformed, or it is well formed so far
  and does not fit what is read;
- the causes of a misfit and their wording.

Does not own: positions in the text, what is read.
-/

namespace Keypad.Json

/-- A value met where another kind was expected. -/
inductive Found where
  | null
  | boolean (value : Bool)
  | integer (value : Int)
  | float (value : Binary64)
  | text (value : String)
  | sequence
  | map
  deriving DecidableEq

def Found.describe : Found → String
  | .null => "null"
  | .boolean true => "boolean `true`"
  | .boolean false => "boolean `false`"
  | .integer value => "integer `" ++ String.ofList (writeInteger value) ++ "`"
  | .float value => "floating point `" ++ String.ofList (writeNumber value) ++ "`"
  | .text value => "string " ++ Quoted.write value
  | .sequence => "sequence"
  | .map => "map"

/-- What a reader wanted. -/
inductive Expected where
  | number
  | count
  | text
  | path
  | sequence
  | map
  | record (name : String)
  deriving DecidableEq

def Expected.describe : Expected → String
  | .number => "f64"
  | .count => "usize"
  | .text => "a string"
  | .path => "path string"
  | .sequence => "a sequence"
  | .map => "a map"
  | .record name => "struct " ++ name

/-- Why a well-formed value does not fit. -/
inductive Misfit where
  | wrongType (found : Found) (expected : Expected)
  | wrongValue (found : Found) (expected : Expected)
  | missingField (name : String)
  | duplicateField (name : String)
  | wrongLength (length : Nat) (record : String) (fields : Nat)
  | unknownOperator (symbol : String)
  | itemWithoutContent
  deriving DecidableEq

def Misfit.message : Misfit → String
  | .wrongType found expected =>
      "invalid type: " ++ found.describe ++ ", expected " ++ expected.describe
  | .wrongValue found expected =>
      "invalid value: " ++ found.describe ++ ", expected " ++ expected.describe
  | .missingField name => "missing field `" ++ name ++ "`"
  | .duplicateField name => "duplicate field `" ++ name ++ "`"
  | .wrongLength length record fields =>
      "invalid length " ++ String.ofList (writeNatural length) ++ ", expected struct " ++ record ++
        " with " ++ String.ofList (writeNatural fields) ++ " elements"
  | .unknownOperator symbol => "unknown operator symbol '" ++ symbol ++ "'"
  | .itemWithoutContent => "expression item has neither 'number' nor 'operator'"

/-- Why a text is refused. -/
inductive Fault where
  | truncated
  | malformed
  | misfit (cause : Misfit)
  deriving DecidableEq

def Fault.message : Fault → String
  | .truncated => "unexpected end of text"
  | .malformed => "malformed text"
  | .misfit cause => cause.message

/-- Results of reading. -/
abbrev Result (α : Type) := Except Fault α

/-- A value read from the front of a text, and the rest of the text. -/
abbrev Step (α : Type) := Result (α × List Char)

end Keypad.Json
