import Mathlib.Logic.Function.Basic
import Keypad.Proofs.Storage.FailedWrites
import Keypad.Proofs.Storage.Refinement

/-!
Contract: the file of a store is told by its slots alone.

Slots are kept in the order of their names, one for each name, and every write is a write of the
whole document. So nothing of how the slots came about is left in the file: neither the order of the
changes nor the texts that were replaced or removed, nor what the file was before.

Owns:
- stores after a call that wrote their file, and what is then in the file;
- that two such stores show the same exactly when their files are the same byte for byte;
- that texts under different names may be set in either order.

Does not own: calls after which nothing is written.
-/

namespace Keypad

namespace Slots

/-- Texts are inserted under different names in either order. -/
theorem insert_comm {first second : String} (different : first ≠ second) (slots : Slots)
    (left right : String) :
    (slots.insert first left).insert second right =
      (slots.insert second right).insert first left := by
  apply get?_injective
  intro name
  simp only [get?_insert_eq_update]
  rw [Function.update_comm different]

theorem encode_injective {left right : Slots} (same : left.encode = right.encode) :
    left = right := by
  apply Except.ok.inj
  rw [← decode_encode left, same, decode_encode]

end Slots

/-- Of two entries put at one place the second one stays. -/
theorem FileSystem.put_put (fs : FileSystem) (location : Location) (first second : Entry) :
    (fs.put location first).put location second = fs.put location second := by
  simp [put, Placed.isAt_length, Placed.of, List.filter_filter]

namespace FileStore

variable {path : String} {store after : FileStore}

/-! ## What is in the file -/

/-- A store that a run of calls under a path led to, the last of which wrote the file. Before it
calls may have failed. -/
inductive EndsWriting (path : String) : FileStore → Prop where
  | wrote {disk base now : FileSystem} {opened before after : FileStore} {calls : List Call}
      {change : Change} (openedAs : openAt disk path = .ok opened)
      (earlier : Run path opened calls base before) (sameFile : SameFile path base now)
      (writes : change.writes before.slots = true)
      (changed : change.on { before with disk := now } = (.ok (), after)) : EndsWriting path after

/-- The file holds the document of the slots, byte for byte. -/
theorem Flushed.readBytes (flushed : Flushed store after) :
    after.disk.readBytes (.ofText after.path) =
      .ok (String.ofList after.slots.encode).toUTF8 := by
  unfold FileSystem.readBytes
  rw [flushed.found]

theorem EndsWriting.readBytes (ends : EndsWriting path store) :
    store.disk.readBytes (.ofText path) = .ok (String.ofList store.slots.encode).toUTF8 := by
  cases ends with
  | wrote openedAs earlier sameFile writes changed =>
      have place : store.path = path :=
        (shows_of_on changed).1.trans (earlier.follows openedAs).place
      rw [Change.on_eq, if_pos writes] at changed
      rw [← place]
      exact (flushed_of_flush changed).readBytes

/-! ## Two orders -/

/-- A store on whose disk the directories stand is written by putting one file. -/
theorem set_of_takesFile {made : FileSystem} {directory : Location} {name : String}
    (surrounded : store.makeSurroundings = (.ok (), made))
    (takes : FileSystem.TakesFile made (.ofText store.path) directory name) (key value : String) :
    store.set key value = (.ok (), ⟨store.path, store.slots.insert key value,
      made.put (name :: directory)
        (.file (String.ofList (store.slots.insert key value).encode).toUTF8)⟩) := by
  show flush { store with slots := store.slots.insert key value } = _
  apply flush_of_takesFile
  · exact surrounded
  · exact takes

/-- Once one text was set with success, so is the next one, and only the last document stays. -/
theorem set_set {made : FileSystem} {directory : Location} {name : String}
    (surrounded : store.makeSurroundings = (.ok (), made))
    (takes : FileSystem.TakesFile made (.ofText store.path) directory name)
    (first second left right : String) :
    (store.set first left).2.set second right =
      (.ok (), ⟨store.path, (store.slots.insert first left).insert second right,
        made.put (name :: directory) (.file (String.ofList
          ((store.slots.insert first left).insert second right).encode).toUTF8)⟩) := by
  rw [set_of_takesFile surrounded takes]
  obtain ⟨keeps, _, takesAgain⟩ :=
    takes.put (String.ofList (store.slots.insert first left).encode).toUTF8
  have surroundedAgain := makeSurroundings_again surrounded keeps (store.slots.insert first left)
  rw [set_of_takesFile surroundedAgain takesAgain, FileSystem.put_put]

/-- Texts under different names are set in either order, to the very same store and disk. -/
theorem set_comm {first second left right : String} (different : first ≠ second)
    (succeeds : (store.set first left).1 = .ok ()) :
    ∃ final, (store.set first left).2.set second right = (.ok (), final) ∧
      (store.set second right).1 = .ok () ∧
      (store.set second right).2.set first left = (.ok (), final) := by
  have flushed : flush { store with slots := store.slots.insert first left } =
      (.ok (), (store.set first left).2) := Prod.ext succeeds rfl
  obtain ⟨made, directory, name, madeAround, takesAt⟩ := exists_takesFile_of_flush flushed
  -- Neither depends on the slots, so both are known of the store itself.
  have surrounded : store.makeSurroundings = (.ok (), made) := madeAround
  have takes : FileSystem.TakesFile made (.ofText store.path) directory name := takesAt
  refine ⟨_, set_set surrounded takes first second left right, ?_, ?_⟩
  · rw [set_of_takesFile surrounded takes]
  · rw [set_set surrounded takes second first right left,
      Slots.insert_comm different.symm store.slots right left]

/-! ## The file and the slots -/

/-- Two stores, each after a call that wrote its file, show the same slots exactly when the same
bytes are in their files. In particular texts under different names may be set in either order. -/
theorem readBytes_eq_iff {leftPath rightPath : String} {left right : FileStore}
    (leftEnds : EndsWriting leftPath left) (rightEnds : EndsWriting rightPath right) :
    ((∀ name, left.get name = right.get name) ↔
        ∃ bytes, left.disk.readBytes (.ofText leftPath) = .ok bytes ∧
          right.disk.readBytes (.ofText rightPath) = .ok bytes) ∧
      ∀ (store : FileStore) (first second x y : String), first ≠ second →
        (store.set first x).1 = .ok () →
        ∃ final, (store.set first x).2.set second y = (.ok (), final) ∧
          (store.set second y).1 = .ok () ∧
          (store.set second y).2.set first x = (.ok (), final) := by
  constructor
  · rw [get_eq_iff, leftEnds.readBytes, rightEnds.readBytes]
    constructor
    · intro same
      exact ⟨_, rfl, by rw [same]⟩
    · rintro ⟨bytes, leftBytes, rightBytes⟩
      have sameBytes := Except.ok.inj (leftBytes.trans rightBytes.symm)
      have sameText := congrArg String.fromUTF8? sameBytes
      simp only [FileSystem.fromUTF8?_toUTF8, Option.some.injEq, String.ofList_inj] at sameText
      exact Slots.encode_injective sameText
  · intro store first second x y different succeeds
    exact set_comm different succeeds

/-- A file whose names are out of order, one of them repeated. -/
def disordered : FileSystem :=
  (FileSystem.bare ["home"]).put ["left.json", "home"]
    (.file "\x7b\"b\":\"old\",\"a\":\"1\",\"b\":\"2\"\x7d".toUTF8)

/-- A text set in a store that was just opened, and what is shown then. -/
theorem exists_endsWriting {disk : FileSystem} {key value : String}
    {entries : List (String × String)}
    (shown : ((openAt disk path).map fun store =>
      ((store.set key value).1, (store.set key value).2.slots.entries)) = .ok (.ok (), entries)) :
    ∃ after, EndsWriting path after ∧ after.slots.entries = entries := by
  cases openedAs : openAt disk path with
  | error fault =>
      rw [openedAs] at shown
      cases shown
  | ok opened =>
      rw [openedAs] at shown
      obtain ⟨succeeds, entriesEq⟩ := Prod.mk.inj (Except.ok.inj shown)
      have same : SameFile path opened.disk opened.disk := fun _ => Iff.rfl
      have changed : Change.on (.set key value) opened =
          (.ok (), (opened.set key value).2) := Prod.ext succeeds rfl
      exact ⟨_, .wrote openedAs .fresh same rfl changed, entriesEq⟩

/-- A store under a path whose directory is missing, after one text was set. -/
def begun : FileStore :=
  (Change.on (.set "b" "2") ⟨"/home/deep/right.json", .empty, .bare ["home"]⟩).2

/-- A file out of order and one text set in it, against a new file and two texts set in it. -/
theorem readBytes_eq_iff_disordered :
    ∃ left right bytes, EndsWriting "/home/left.json" left ∧
      EndsWriting "/home/deep/right.json" right ∧ (∀ name, left.get name = right.get name) ∧
      left.disk.readBytes (.ofText "/home/left.json") = .ok bytes ∧
      right.disk.readBytes (.ofText "/home/deep/right.json") = .ok bytes := by
  have shown : ((openAt disordered "/home/left.json").map fun store =>
      ((store.set "a" "3").1, (store.set "a" "3").2.slots.entries)) =
      .ok (.ok (), [("a", "3"), ("b", "2")]) := by
    decide +kernel
  obtain ⟨left, leftEnds, leftEntries⟩ := exists_endsWriting shown
  have wroteFirst : (Change.on (.set "b" "2")
      ⟨"/home/deep/right.json", .empty, .bare ["home"]⟩).1 = .ok () := by
    decide +kernel
  have wroteSecond : (Change.on (.set "a" "3") begun).1 = .ok () := by
    decide +kernel
  have first : Change.on (.set "b" "2") ⟨"/home/deep/right.json", .empty, .bare ["home"]⟩ =
      (.ok (), begun) := Prod.ext wroteFirst rfl
  have second : Change.on (.set "a" "3") begun =
      (.ok (), (Change.on (.set "a" "3") begun).2) := Prod.ext wroteSecond rfl
  have openedAs : openAt (.bare ["home"]) "/home/deep/right.json" =
      .ok ⟨"/home/deep/right.json", .empty, .bare ["home"]⟩ := rfl
  have same (disk : FileSystem) : SameFile "/home/deep/right.json" disk disk := fun _ => Iff.rfl
  have rightEnds : EndsWriting "/home/deep/right.json" (Change.on (.set "a" "3") begun).2 :=
    .wrote openedAs (.succeeded .fresh (same _) first) (same _) rfl second
  have sameSlots : left.slots = (Change.on (.set "a" "3") begun).2.slots := by
    apply Slots.ext
    rw [leftEntries, (shows_of_on second).2, (shows_of_on first).2]
    decide +kernel
  have sameShown := get_eq_iff.mpr sameSlots
  obtain ⟨bytes, leftBytes, rightBytes⟩ := (readBytes_eq_iff leftEnds rightEnds).1.mp sameShown
  exact ⟨left, _, bytes, leftEnds, rightEnds, sameShown, leftBytes, rightBytes⟩

end FileStore

end Keypad
