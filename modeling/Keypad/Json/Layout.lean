import Keypad.Json.Text

/-!
Contract: arrays and objects as they are written.

Owns:
- the compact layout, without blanks;
- the open layout of objects, with one indented member a line.

Does not own: the values inside.
-/

namespace Keypad.Json

/-- Elements between brackets. -/
def writeArray (elements : List (List Char)) : List Char :=
  '[' :: ([','].intercalate elements ++ [']'])

/-- A key, a colon and a value. -/
def writeMember (name : String) (value : List Char) : List Char :=
  writeText name ++ ':' :: value

/-- Members between braces. -/
def writeObject (members : List (String × List Char)) : List Char :=
  '\x7b' :: ([','].intercalate (members.map fun entry => writeMember entry.1 entry.2) ++ ['\x7d'])

/-- A member on a line of its own, indented by two blanks. -/
def writeMemberLine (name : String) (value : List Char) : List Char :=
  ['\n', ' ', ' '] ++ writeText name ++ [':', ' '] ++ value

/-- Members between braces, each on a line of its own; without members, only the braces. -/
def writeOpenObject (members : List (String × List Char)) : List Char :=
  if members.isEmpty then
    ['\x7b', '\x7d']
  else
    '\x7b' ::
      ([','].intercalate (members.map fun entry => writeMemberLine entry.1 entry.2) ++
        ['\n', '\x7d'])

end Keypad.Json
