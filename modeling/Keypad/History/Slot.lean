import Keypad.History.Codec
import Keypad.Storage.KeyValueStore

/-!
Contract: the history of calculations in one slot of a store.

Owns:
- saving and loading with their faults;
- saving and loading that carry on without them: a lost save changes nothing else, and a history
  that cannot be read is an empty one.

Does not own: the store, when a session saves.
-/

namespace Keypad

/-- Why a history could not be saved or loaded. -/
inductive HistoryFault where
  | unencodable (index : Nat)
  | storage (cause : FileFault)
  | undecodable (cause : Json.Fault)
  deriving DecidableEq

def HistoryFault.message : HistoryFault → String
  | .unencodable index =>
      "Failed to encode history: record " ++ String.ofList (Json.writeNatural index) ++
        " contains a non-finite number"
  | .storage cause => "Storage error: " ++ cause.message
  | .undecodable cause => "Failed to decode history: " ++ cause.message

namespace History

variable {σ : Type} [KeyValueStore σ]

/-- The name of the slot used when none is configured. -/
def defaultSlot : String := "calculationHistoryKey"

/-- Writes a history to its slot. A history with a number that is not finite is refused before the
store is asked. -/
def trySave (store : σ) (slot : String) (history : List Calculation) :
    Except HistoryFault Unit × σ :=
  match history.findIdx? fun calculation => !calculation.isEncodable with
  | some index => (.error (.unencodable index), store)
  | none =>
      match KeyValueStore.set store slot (String.ofList (encodeHistory history)) with
      | (.ok (), store) => (.ok (), store)
      | (.error cause, store) => (.error (.storage cause), store)

/-- Writes a history to its slot, and carries on when that fails. -/
def save (store : σ) (slot : String) (history : List Calculation) : σ :=
  (trySave store slot history).2

/-- Reads the history of a slot; a slot that is not there holds an empty one. -/
def tryLoad (store : σ) (slot : String) : Except HistoryFault (List Calculation) :=
  match KeyValueStore.get store slot with
  | .error cause => .error (.storage cause)
  | .ok none => .ok []
  | .ok (some text) =>
      match decodeHistory text with
      | .ok history => .ok history
      | .error cause => .error (.undecodable cause)

/-- Reads the history of a slot; one that cannot be read is empty. -/
def load (store : σ) (slot : String) : List Calculation :=
  match tryLoad store slot with
  | .ok history => history
  | .error _ => []

end History

end Keypad
