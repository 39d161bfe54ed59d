import Keypad.Main
import Keypad.Proofs.Number.Nearest
import Keypad.Proofs.Number.CorrectRounding
import Keypad.Proofs.Number.Positional
import Keypad.Proofs.Number.Display
import Keypad.Proofs.Number.Shortest
import Keypad.Proofs.Number.Arithmetic
import Keypad.Proofs.Json.NumberRange
import Keypad.Proofs.Json.NumberText
import Keypad.Proofs.Json.Nested
import Keypad.Proofs.History.Codec
import Keypad.Proofs.History.Slot
import Keypad.Proofs.Session.Run
import Keypad.Proofs.Session.Sync
import Keypad.Proofs.Expression.LeftFold
import Keypad.Proofs.Expression.LongestPrefix
import Keypad.Proofs.Session.Typing
import Keypad.Proofs.Session.Answer
import Keypad.Proofs.Storage.FileStore
import Keypad.Proofs.Session.Restart
import Keypad.Proofs.Session.Phases
import Keypad.Proofs.Session.Precision
import Keypad.Proofs.Session.Repetition
import Keypad.Proofs.Json.Objects
import Keypad.Proofs.Json.Refused
import Keypad.Proofs.Storage.Refinement
import Keypad.Proofs.Session.Independence
import Keypad.Proofs.History.FailedSave
import Keypad.Proofs.History.Guard
import Keypad.Proofs.Storage.FailedWrites
import Keypad.Proofs.Storage.Frame
import Keypad.Proofs.Terminal.Commands
import Keypad.Proofs.Terminal.Frame
import Keypad.Proofs.Number.DisplayNumeral
import Keypad.Proofs.Number.ReadsBack
import Keypad.Proofs.Json.Rescaling
import Keypad.Proofs.Json.Everyday
import Keypad.Proofs.History.Reload
import Keypad.Proofs.Number.FreeForm
import Keypad.Proofs.Number.Reading
import Keypad.Proofs.Number.WrittenForm
import Keypad.Proofs.Session.Overflow
import Keypad.Proofs.Expression.Text
import Keypad.Proofs.Settings
import Keypad.Proofs.Storage.Canonical
import Keypad.Proofs.Json.Grammar
import Keypad.Proofs.Json.Skipped
import Keypad.Proofs.Json.Verdict
import Keypad.Proofs.Json.Containers
import Keypad.Proofs.Json.Fields
import Keypad.Proofs.History.Records
import Keypad.Proofs.History.Elements
import Keypad.Proofs.Rearranged
