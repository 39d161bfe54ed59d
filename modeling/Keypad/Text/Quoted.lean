import Keypad.Text.HiddenCharacter

/-!
Contract: texts quoted for a reader of messages.

Owns:
- quotation marks around a text, with the marks, backslashes and characters that would not show
  written as escapes.

Does not own: texts in documents.
-/

namespace Keypad.Quoted

/-- Whether a character would not show as itself. -/
def isHidden (character : Char) : Bool :=
  character.toNat < 0x20 ||
    HiddenCharacter.ranges.any fun range =>
      range.1 ≤ character.toNat && character.toNat ≤ range.2

/-- A character's number in hexadecimal, in braces. -/
def numbered (character : Char) : List Char :=
  ['\\', 'u', '\x7b'] ++ Nat.toDigits 16 character.toNat ++ ['\x7d']

def writeCharacter (character : Char) : List Char :=
  match character with
  | '"' => ['\\', '"']
  | '\\' => ['\\', '\\']
  | '\n' => ['\\', 'n']
  | '\r' => ['\\', 'r']
  | '\t' => ['\\', 't']
  | '\x00' => ['\\', '0']
  | other => if isHidden other then numbered other else [other]

/-- The text between quotation marks. -/
def write (text : String) : String :=
  String.ofList ('"' :: text.toList.flatMap writeCharacter ++ ['"'])

end Keypad.Quoted
