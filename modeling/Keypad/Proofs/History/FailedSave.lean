import Keypad.Proofs.History.Slot

/-!
Contract: what a save that failed leaves behind.

A history that cannot be encoded never reaches the store. One that the store could not write may all
the same be what is loaded afterwards: a store in a file takes a text into its copy before it writes,
and a failed write does not take it out again.

Owns:
- the two ways for a save to fail;
- exactly when a failed save leaves every slot as it was, and what it leaves in the slot otherwise.

Does not own: what is in the file after a failed write.
-/

namespace Keypad

/-- Only a store in a file can fail and change: it then answers with the text that it could not
write. -/
theorem Store.get_of_set_error {store after : Store} {name value : String} {fault : FileFault}
    (failed : store.set name value = (.error fault, after)) :
    (∃ reason, store = .unavailable reason ∧ after = store) ∨
      (∃ file, store = .file file) ∧ after.get name = .ok (some value) ∧
        ∀ other, other ≠ name → after.get other = store.get other := by
  cases store with
  | memory store => cases failed
  | unavailable reason =>
      cases failed
      exact .inl ⟨reason, rfl, rfl⟩
  | file store =>
      obtain ⟨kept, rfl, unwritten⟩ := Store.exists_of_set_file failed
      exact .inr ⟨⟨store, rfl⟩, FileStore.get_of_set unwritten,
        fun other different => FileStore.get_of_set_of_ne unwritten different⟩

namespace History

/-- A save fails for a number that is not finite, and then the store was not asked, or because the
store could not take the text. -/
theorem cases_of_trySave_error {σ : Type} [KeyValueStore σ] {store after : σ} {slot : String}
    {history : List Calculation} {fault : HistoryFault}
    (failed : trySave store slot history = (.error fault, after)) :
    (∃ index, fault = .unencodable index ∧ after = store) ∨
      ∃ cause, fault = .storage cause ∧
        (∀ calculation ∈ history, calculation.isEncodable = true) ∧
        KeyValueStore.set store slot (String.ofList (encodeHistory history)) =
          (.error cause, after) := by
  unfold trySave at failed
  split at failed
  next index _ =>
    cases failed
    exact .inl ⟨index, rfl, rfl⟩
  next allEncodable =>
    split at failed
    · cases failed
    next cause kept refused =>
      cases failed
      refine .inr ⟨cause, rfl, fun calculation member => ?_, refused⟩
      simpa using List.findIdx?_eq_none_iff.mp allEncodable calculation member

/-- What is loaded depends on the text in the slot only. -/
theorem tryLoad_congr {σ : Type} [KeyValueStore σ] {left right : σ} {slot : String}
    (same : KeyValueStore.get right slot = KeyValueStore.get left slot) :
    tryLoad right slot = tryLoad left slot := by
  unfold tryLoad
  rw [same]

variable {store after : Store} {slot : String} {history : List Calculation} {fault : HistoryFault}

/-- After a save that failed no other slot has changed, and every slot is as it was exactly when the
history could not be encoded, when the store is unavailable, or when the slot held the very text
already; what is loaded is then as it was. In all other cases the slot of a store in a file holds the
history that was not saved, and that is what is loaded. -/
theorem get_of_trySave_error (failed : trySave store slot history = (.error fault, after)) :
    (∀ name, name ≠ slot → KeyValueStore.get after name = KeyValueStore.get store name) ∧
      ((∀ name, KeyValueStore.get after name = KeyValueStore.get store name) ↔
        (∃ index, fault = .unencodable index) ∨ (∃ reason, store = .unavailable reason) ∨
          KeyValueStore.get store slot = .ok (some (String.ofList (encodeHistory history)))) ∧
      ((∀ name, KeyValueStore.get after name = KeyValueStore.get store name) →
        tryLoad after slot = tryLoad store slot) ∧
      ((¬∀ name, KeyValueStore.get after name = KeyValueStore.get store name) →
        (∃ file, store = .file file) ∧
          KeyValueStore.get after slot = .ok (some (String.ofList (encodeHistory history))) ∧
          tryLoad after slot = .ok (history.map Calculation.reread)) := by
  have loadsSame : (∀ name, KeyValueStore.get after name = KeyValueStore.get store name) →
      tryLoad after slot = tryLoad store slot := fun same => tryLoad_congr (same slot)
  rcases cases_of_trySave_error failed with ⟨index, rfl, rfl⟩ | ⟨cause, rfl, encodable, refused⟩
  · have same : ∀ name, KeyValueStore.get after name = KeyValueStore.get after name :=
      fun _ => rfl
    exact ⟨fun name _ => same name, iff_of_true same (.inl ⟨index, rfl⟩), loadsSame,
      fun changed => absurd same changed⟩
  · rcases Store.get_of_set_error refused with ⟨reason, rfl, rfl⟩ | ⟨isFile, found, others⟩
    · have same : ∀ name, KeyValueStore.get (Store.unavailable reason) name =
          KeyValueStore.get (Store.unavailable reason) name := fun _ => rfl
      exact ⟨fun name _ => same name, iff_of_true same (.inr (.inl ⟨reason, rfl⟩)), loadsSame,
        fun changed => absurd same changed⟩
    · refine ⟨others, ⟨fun same => ?_, ?_⟩, loadsSame,
        fun _ => ⟨isFile, found, tryLoad_of_get encodable found⟩⟩
      · exact .inr (.inr ((same slot).symm.trans found))
      · rintro (⟨index, isUnencodable⟩ | ⟨reason, rfl⟩ | held)
        · cases isUnencodable
        · obtain ⟨file, isFile⟩ := isFile
          cases isFile
        · intro name
          by_cases isSlot : name = slot
          · rw [isSlot]
            exact found.trans held.symm
          · exact others name isSlot

/-- One and two. -/
def onePlusTwo : Calculation where
  expression := ⟨[.number (.ofNat 1), .operator .add, .number (.ofNat 2)]⟩
  result := .ofNat 3

/-- A store whose file would be in a directory, where there is a file. -/
def blocked : Store :=
  .file ⟨"/notes/slots.json", .empty, (FileSystem.bare []).put ["notes"] (.file "x".toUTF8)⟩

/-- The slot is empty, and holds the history that was not saved. -/
theorem get_of_trySave_error_blocked :
    ∃ after, trySave blocked defaultSlot [onePlusTwo] = (.error (.storage .alreadyExists), after) ∧
      KeyValueStore.get blocked defaultSlot = .ok none ∧
      KeyValueStore.get after defaultSlot = .ok (some (String.ofList (encodeHistory [onePlusTwo]))) ∧
      tryLoad after defaultSlot = .ok ([onePlusTwo].map Calculation.reread) := by
  have failed : (trySave blocked defaultSlot [onePlusTwo]).1 = .error (.storage .alreadyExists) := by
    decide +kernel
  have empty : KeyValueStore.get blocked defaultSlot = .ok none := by rfl
  cases tried : trySave blocked defaultSlot [onePlusTwo] with
  | mk outcome after =>
      rw [tried] at failed
      obtain rfl := failed
      obtain ⟨_, sameIff, _, keeps⟩ := get_of_trySave_error tried
      have changed : ¬∀ name, KeyValueStore.get after name = KeyValueStore.get blocked name := by
        rw [sameIff]
        rintro (⟨index, isUnencodable⟩ | ⟨reason, isUnavailable⟩ | held)
        · cases isUnencodable
        · cases isUnavailable
        · rw [empty] at held
          cases held
      obtain ⟨_, found, loaded⟩ := keeps changed
      exact ⟨after, rfl, empty, found, loaded⟩

/-- A save that fails may change what is loaded. -/
theorem tryLoad_blocked :
    (trySave blocked defaultSlot [onePlusTwo]).1 = .error (.storage .alreadyExists) ∧
      tryLoad blocked defaultSlot = .ok [] ∧
      tryLoad (trySave blocked defaultSlot [onePlusTwo]).2 defaultSlot = .ok [onePlusTwo] := by
  decide +kernel

end History

end Keypad
