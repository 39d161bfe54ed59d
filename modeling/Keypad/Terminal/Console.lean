import Keypad.Session.Basic
import Keypad.Text.Blank

/-!
Contract: a session driven by lines of text.

Characters are keys or commands; blanks and characters that mean nothing are passed over. After
every line the display is printed.

Owns:
- the meaning of characters, with stand-ins for the symbols that keyboards lack;
- the lines of an input, taken byte by byte;
- what is printed, and how a run ends.

Does not own: options, files.
-/

namespace Keypad

/-- What a typed character asks for. -/
inductive Command where
  | key (key : Key)
  | history
  | quit
  deriving DecidableEq

/-- The command of a character: stand-ins first, then the characters on the keys. -/
def Command.ofCharacter? : Char → Option Command
  | 'c' => some (.key .clear)
  | 'h' => some .history
  | 'H' => some .history
  | 'q' => some .quit
  | 'Q' => some .quit
  | '-' => some (.key (.operator .subtract))
  | '*' => some (.key (.operator .multiply))
  | 'x' => some (.key (.operator .multiply))
  | 'X' => some (.key (.operator .multiply))
  | '/' => some (.key (.operator .divide))
  | character => (Key.ofCharacter? character).map Command.key

/-- A printed line. -/
inductive PrintedLine where
  | display (text : String)
  | row (text : String)
  | noHistory
  deriving DecidableEq

def PrintedLine.text : PrintedLine → String
  | .display text => text
  | .row text => text
  | .noHistory => "(no history)"

/-- Printed lines as one text. -/
def PrintedLine.output (lines : List PrintedLine) : String :=
  String.join (lines.map fun line => line.text ++ "\n")

/-- Why a run takes no more input. -/
inductive Ending where
  | quit
  | invalidText
  | fault (cause : FormatFault)
  deriving DecidableEq

/-- A session with the bytes of a line under way, last first, with what it has printed, and with the
reason for its end if it has ended. -/
structure Console (σ : Type) where
  session : Session σ
  begun : List UInt8
  printed : Array PrintedLine
  ending : Option Ending

namespace Console

variable {σ : Type}

/-- The lines of a history listing. -/
def listing (session : Session σ) : List PrintedLine :=
  if session.history.isEmpty then [.noHistory] else session.rows.map PrintedLine.row

/-- A console that has printed the display. -/
def start (session : Session σ) : Console σ where
  session := session
  begun := []
  printed := #[.display session.display]
  ending := none

def print (console : Console σ) (lines : List PrintedLine) : Console σ :=
  { console with printed := console.printed ++ lines }

/-- Carries out a command, unless the run has ended. -/
def carryOut [KeyValueStore σ] (console : Console σ) (command : Command) : Console σ :=
  if console.ending.isSome then
    console
  else
    match command with
    | .quit => { console with ending := some .quit }
    | .history => console.print (listing console.session)
    | .key key =>
        match console.session.press key with
        | .ok (_, session) => { console with session }
        | .error cause => { console with ending := some (.fault cause) }

/-- The commands of a line. -/
def commands (line : List Char) : List Command :=
  (line.filter fun character => !Blank.contains character).filterMap Command.ofCharacter?

/-- Carries out the commands of a line and prints the display, unless the run has ended before or
ends on the way. -/
def typeLine [KeyValueStore σ] (console : Console σ) (line : List Char) : Console σ :=
  let typed := (commands line).foldl carryOut console
  if typed.ending.isSome then typed else typed.print [.display typed.session.display]

/-- Takes one line of bytes; one that holds no text ends the run. -/
def takeLine [KeyValueStore σ] (console : Console σ) (line : List UInt8) : Console σ :=
  if console.ending.isSome then
    console
  else
    match String.fromUTF8? ⟨line.toArray⟩ with
    | some text => console.typeLine text.toList
    | none => { console with ending := some .invalidText }

/-- Takes a byte. A line feed ends a line; a carriage return before it stays in the line, where as a
blank it means nothing. -/
def takeByte [KeyValueStore σ] (console : Console σ) (byte : UInt8) : Console σ :=
  if byte = 0x0A then
    takeLine { console with begun := [] } console.begun.reverse
  else
    { console with begun := byte :: console.begun }

def takeBytes [KeyValueStore σ] (console : Console σ) (bytes : List UInt8) : Console σ :=
  bytes.foldl takeByte console

/-- Takes the end of the input. It ends a line that has begun. -/
def finish [KeyValueStore σ] (console : Console σ) : Console σ :=
  if console.begun.isEmpty then
    console
  else
    takeLine { console with begun := [] } console.begun.reverse

/-- Runs a session on an input. -/
def drive [KeyValueStore σ] (session : Session σ) (input : List UInt8) : Console σ :=
  ((start session).takeBytes input).finish

/-- All that a run printed, as one text. -/
def output (console : Console σ) : String := PrintedLine.output console.printed.toList

end Console

end Keypad
