import Keypad.Proofs.Storage.Document

/-!
Contract: what is in the file of a store some of whose writes fail.

The file is as the last successful write left it. The store shows every change, whether it was
written or not. So the two agree after every call that writes with success, and after a call that
reports success because it has nothing to write only if they agreed before it.

Owns:
- changes of a store, and which of them write;
- runs of changes, each of which may fail, on a disk that may change in all but the file;
- what such a run shows, and what it has written.

Does not own: the reasons for a write to fail.
-/

namespace Keypad

namespace FileStore

/-! ## Changes -/

/-- A change of a store. -/
inductive Change where
  | set (name value : String)
  | remove (name : String)

namespace Change

/-- What a change makes of slots. -/
def applyTo (change : Change) (slots : Slots) : Slots :=
  match change with
  | .set name value => slots.insert name value
  | .remove name => slots.erase name

/-- Whether a store that shows some slots writes its file for a change. -/
def writes (change : Change) (slots : Slots) : Bool :=
  match change with
  | .set _ _ => true
  | .remove name => (slots.get? name).isSome

/-- Makes a change. -/
def on (change : Change) (store : FileStore) : Except FileFault Unit × FileStore :=
  match change with
  | .set name value => store.set name value
  | .remove name => store.remove name

/-- A change for which nothing is written changes nothing. -/
theorem applyTo_of_not_writes {change : Change} {slots : Slots}
    (idle : change.writes slots = false) : change.applyTo slots = slots := by
  cases change with
  | set name value => cases idle
  | remove name => exact Slots.erase_of_get?_eq_none (by simpa [writes] using idle)

/-- A change either leaves the store alone, or writes the changed slots. -/
theorem on_eq (change : Change) (store : FileStore) :
    change.on store =
      if change.writes store.slots then flush { store with slots := change.applyTo store.slots }
      else (.ok (), store) := by
  cases change <;> rfl

end Change

/-- Stores answer the same look-ups when they hold the same slots. -/
theorem get_eq_iff {left right : FileStore} :
    (∀ name, left.get name = right.get name) ↔ left.slots = right.slots := by
  constructor
  · intro same
    exact Slots.get?_injective fun name => Except.ok.inj (same name)
  · intro same name
    unfold get
    rw [same]

variable {path : String} {store after : FileStore} {change : Change}

/-- A change is shown, whether it was written or not. -/
theorem shows_of_on {outcome : Except FileFault Unit} (changed : change.on store = (outcome, after)) :
    after.path = store.path ∧ after.slots = change.applyTo store.slots := by
  rw [Change.on_eq] at changed
  split at changed
  · have place := path_flush { store with slots := change.applyTo store.slots }
    have shown := slots_flush { store with slots := change.applyTo store.slots }
    rw [changed] at place shown
    exact ⟨place, shown⟩
  next idle =>
    cases changed
    exact ⟨rfl, (Change.applyTo_of_not_writes (by simpa using idle)).symm⟩

/-! ## Runs -/

/-- A change that was asked for, and what the store reported. -/
structure Call where
  change : Change
  outcome : Except FileFault Unit

/-- What a store shows, and what it wrote last. -/
structure Ledger where
  shown : Slots
  written : Slots

/-- Every change is shown. What was written is replaced by a call that writes and succeeds. -/
def Ledger.enter (ledger : Ledger) (call : Call) : Ledger where
  shown := call.change.applyTo ledger.shown
  written :=
    match call.outcome with
    | .ok () =>
        if call.change.writes ledger.shown then call.change.applyTo ledger.shown
        else ledger.written
    | .error _ => ledger.written

/-- The ledger after some calls, the newest first, on slots that were read from the file. -/
def Ledger.ofCalls (slots : Slots) : List Call → Ledger
  | [] => ⟨slots, slots⟩
  | call :: earlier => (Ledger.ofCalls slots earlier).enter call

/-- As long as no call fails, all that is shown is written. -/
theorem Ledger.written_eq_shown {calls : List Call} (slots : Slots)
    (succeeded : ∀ call ∈ calls, call.outcome = .ok ()) :
    (Ledger.ofCalls slots calls).written = (Ledger.ofCalls slots calls).shown := by
  induction calls with
  | nil => rfl
  | cons call earlier inductionHypothesis =>
      rw [List.forall_mem_cons] at succeeded
      unfold Ledger.ofCalls Ledger.enter
      rw [succeeded.1]
      dsimp only
      split
      · rfl
      next idle =>
        rw [Change.applyTo_of_not_writes (by simpa using idle)]
        exact inductionHypothesis succeeded.2

/-- Two disks on which a path leads to the same, or to nothing. -/
def SameFile (path : String) (before after : FileSystem) : Prop :=
  ∀ entry, after.stat (.ofText path) = .ok entry ↔ before.stat (.ofText path) = .ok entry

/-- A run of calls, the newest first, from a store that was opened: the disk on which the file was
written last, and the store. Before each call the disk may become another one. A call can succeed
only where the file is the one written last, since nobody else changes that; a call that fails may
fail on any disk, and leaves the file alone. -/
inductive Run (path : String) (opened : FileStore) : List Call → FileSystem → FileStore → Prop where
  | fresh : Run path opened [] opened.disk opened
  | succeeded {calls : List Call} {base now : FileSystem} {store after : FileStore}
      {change : Change} (earlier : Run path opened calls base store)
      (sameFile : SameFile path base now)
      (changed : change.on { store with disk := now } = (.ok (), after)) :
      Run path opened (⟨change, .ok ()⟩ :: calls) after.disk after
  | failed {calls : List Call} {base now : FileSystem} {store after : FileStore}
      {change : Change} {fault : FileFault} (earlier : Run path opened calls base store)
      (changed : change.on { store with disk := now } = (.error fault, after)) :
      Run path opened (⟨change, .error fault⟩ :: calls) base after

/-- What is read under a path depends on what it leads to only. -/
theorem SameFile.slotsOnDisk_eq {before after : FileSystem} (same : SameFile path before after) :
    slotsOnDisk after path = slotsOnDisk before path := by
  unfold slotsOnDisk FileSystem.pathExists FileSystem.readText FileSystem.readBytes
  cases found : before.stat (.ofText path) with
  | ok entry => rw [(same entry).mpr found]
  | error fault =>
      cases foundAfter : after.stat (.ofText path) with
      | ok entry =>
          rw [(same entry).mp foundAfter] at found
          cases found
      | error later => rfl

/-- A store follows a ledger: it shows what the ledger has shown, and the file holds what it has
written. -/
structure Follows (path : String) (ledger : Ledger) (base : FileSystem) (store : FileStore) :
    Prop where
  place : store.path = path
  shown : store.slots = ledger.shown
  written : slotsOnDisk base path = .ok ledger.written

theorem Follows.failed {ledger : Ledger} {base now : FileSystem} {fault : FileFault}
    (follows : Follows path ledger base store)
    (changed : change.on { store with disk := now } = (.error fault, after)) :
    Follows path (ledger.enter ⟨change, .error fault⟩) base after := by
  obtain ⟨place, shown⟩ := shows_of_on changed
  refine ⟨place.trans follows.place, ?_, follows.written⟩
  rw [shown, Ledger.enter, ← follows.shown]

theorem Follows.succeeded {ledger : Ledger} {base now : FileSystem}
    (follows : Follows path ledger base store) (sameFile : SameFile path base now)
    (changed : change.on { store with disk := now } = (.ok (), after)) :
    Follows path (ledger.enter ⟨change, .ok ()⟩) after.disk after := by
  obtain ⟨place, shown⟩ := shows_of_on changed
  refine ⟨place.trans follows.place, ?_, ?_⟩
  · rw [shown, Ledger.enter, ← follows.shown]
  · simp only [Ledger.enter, ← follows.shown]
    rw [Change.on_eq] at changed
    split at changed
    next writes =>
      have reopened := (flushed_of_flush changed).openAt
      obtain ⟨_, _, found⟩ := openAt_eq_ok_iff.mp reopened
      rw [place.trans follows.place, shown] at found
      rw [if_pos writes]
      exact found
    next idle =>
      -- The new disk is only known to have the same file, which is all that is read of it.
      cases changed
      rw [if_neg idle, sameFile.slotsOnDisk_eq]
      exact follows.written

theorem Run.follows {disk base : FileSystem} {opened final : FileStore} {calls : List Call}
    (openedAs : openAt disk path = .ok opened) (run : Run path opened calls base final) :
    Follows path (.ofCalls opened.slots calls) base final := by
  obtain ⟨place, sameDisk, found⟩ := openAt_eq_ok_iff.mp openedAs
  induction run with
  | fresh => exact ⟨place, rfl, sameDisk ▸ found⟩
  | succeeded _ sameFile changed inductionHypothesis =>
      exact inductionHypothesis.succeeded sameFile changed
  | failed _ changed inductionHypothesis => exact inductionHypothesis.failed changed

/-- A call that reported success leaves all written that is shown, unless it had nothing to write
while not all was written. -/
theorem Ledger.enter_ok_written_eq_shown_iff (ledger : Ledger) (change : Change) :
    (ledger.enter ⟨change, .ok ()⟩).written = (ledger.enter ⟨change, .ok ()⟩).shown ↔
      change.writes ledger.shown = true ∨ ledger.written = ledger.shown := by
  unfold Ledger.enter
  dsimp only
  cases writes : change.writes ledger.shown with
  | true => simp
  | false => simp [Change.applyTo_of_not_writes writes]

/-- After every call that reports success, whatever failed before it, the path can be opened, and the
new store shows what the calls that wrote with success have written. It shows what the old store
shows exactly when the call wrote, or when all that was shown before it was written. In particular it
does so as long as no call fails. -/
theorem reopened_of_run {disk base : FileSystem} {opened final : FileStore} {calls : List Call}
    (openedAs : openAt disk path = .ok opened)
    (run : Run path opened (⟨change, .ok ()⟩ :: calls) base final) :
    ∃ reopened, openAt final.disk path = .ok reopened ∧
      reopened.slots = (Ledger.ofCalls opened.slots (⟨change, .ok ()⟩ :: calls)).written ∧
      final.slots = (Ledger.ofCalls opened.slots (⟨change, .ok ()⟩ :: calls)).shown ∧
      ((∀ name, reopened.get name = final.get name) ↔
        change.writes (Ledger.ofCalls opened.slots calls).shown = true ∨
          (Ledger.ofCalls opened.slots calls).written =
            (Ledger.ofCalls opened.slots calls).shown) ∧
      ((∀ call ∈ calls, call.outcome = .ok ()) → ∀ name, reopened.get name = final.get name) := by
  have follows := run.follows openedAs
  have sameBase : base = final.disk := by
    cases run
    rfl
  subst sameBase
  have sameIff := Ledger.enter_ok_written_eq_shown_iff (.ofCalls opened.slots calls) change
  refine ⟨⟨path, (Ledger.ofCalls opened.slots (⟨change, .ok ()⟩ :: calls)).written, final.disk⟩,
    openAt_eq_ok_iff.mpr ⟨rfl, rfl, follows.written⟩, rfl, follows.shown, ?_, fun succeeded => ?_⟩
  · rw [get_eq_iff, follows.shown]
    exact sameIff
  · rw [get_eq_iff, follows.shown]
    exact sameIff.mpr (.inr (Ledger.written_eq_shown opened.slots succeeded))

/-- A path that goes through a directory and out of it again. -/
def detour : String := "/d/../slots.json"

/-- The store after a text was set with success. -/
def detoured : FileStore := (Change.on (.set "k" "v") ⟨detour, .empty, .bare ["d"]⟩).2

/-- A text is set, and its removal fails while there is a file in the place of the directory. -/
theorem exists_run_detour :
    ∃ opened store, openAt (.bare ["d"]) detour = .ok opened ∧ opened.slots = .empty ∧
      Run detour opened [⟨.remove "k", .error .notADirectory⟩, ⟨.set "k" "v", .ok ()⟩]
        detoured.disk store ∧
      IsWritable { store with disk := detoured.disk } := by
  have wrote : (Change.on (.set "k" "v") ⟨detour, .empty, .bare ["d"]⟩).1 = .ok () := by
    decide +kernel
  have refused : ((Change.remove "k").on { detoured with
      disk := detoured.disk.put ["d"] (.file "x".toUTF8) }).1 = .error .notADirectory := by
    decide +kernel
  have set : Change.on (.set "k" "v") ⟨detour, .empty, .bare ["d"]⟩ = (.ok (), detoured) :=
    Prod.ext wrote rfl
  have same : SameFile detour (.bare ["d"]) (.bare ["d"]) := fun _ => Iff.rfl
  have first : Run detour ⟨detour, .empty, .bare ["d"]⟩ [⟨.set "k" "v", .ok ()⟩] detoured.disk
      detoured := .succeeded .fresh same set
  cases remove : (Change.remove "k").on { detoured with
      disk := detoured.disk.put ["d"] (.file "x".toUTF8) } with
  | mk outcome store =>
      rw [remove] at refused
      obtain rfl := refused
      have samePath : store.path = detoured.path := (shows_of_on remove).1
      refine ⟨_, store, rfl, rfl, first.failed remove, fun slots => ?_⟩
      rw [samePath]
      exact (flushed_of_flush set).isWritable slots

/-- After another text was set with success the removal is written as well. -/
theorem reopened_of_run_detour :
    ∃ opened base final reopened, openAt (.bare ["d"]) detour = .ok opened ∧
      Run detour opened [⟨.set "l" "w", .ok ()⟩, ⟨.remove "k", .error .notADirectory⟩,
        ⟨.set "k" "v", .ok ()⟩] base final ∧
      openAt final.disk detour = .ok reopened ∧
      ∀ name, reopened.get name = final.get name := by
  obtain ⟨opened, store, openedAs, empty, earlier, writable⟩ := exists_run_detour
  have same : SameFile detour detoured.disk detoured.disk := fun _ => Iff.rfl
  have wrote : ((Change.set "l" "w").on { store with disk := detoured.disk }).1 = .ok () :=
    writable (store.slots.insert "l" "w")
  have run := earlier.succeeded same (Prod.ext wrote rfl)
  obtain ⟨reopened, reopenedAs, _, _, sameIff, _⟩ := reopened_of_run openedAs run
  exact ⟨opened, _, _, reopened, openedAs, run, reopenedAs, sameIff.mpr (.inl rfl)⟩

/-- A removal that failed and is asked for again reports success, and the text is still in the
file. -/
theorem not_reopened_same_detour :
    ¬∀ (path : String) (disk base : FileSystem) (opened final : FileStore) (change : Change)
      (calls : List Call), openAt disk path = .ok opened →
        Run path opened (⟨change, .ok ()⟩ :: calls) base final →
        ∃ reopened, openAt final.disk path = .ok reopened ∧
          ∀ name, reopened.get name = final.get name := by
  intro reopens
  obtain ⟨opened, store, openedAs, empty, earlier, _⟩ := exists_run_detour
  have follows := earlier.follows openedAs
  rw [empty] at follows
  have idle : (Change.remove "k").writes store.slots = false := by
    rw [follows.shown]
    decide +kernel
  have same : SameFile detour detoured.disk detoured.disk := fun _ => Iff.rfl
  have retried : (Change.remove "k").on { store with disk := detoured.disk } =
      (.ok (), { store with disk := detoured.disk }) := by
    rw [Change.on_eq]
    exact if_neg (by simp [idle])
  obtain ⟨reopened, reopenedAs, sameShown⟩ :=
    reopens _ _ _ _ _ _ _ openedAs (earlier.succeeded same retried)
  obtain ⟨_, _, found⟩ := openAt_eq_ok_iff.mp reopenedAs
  have kept := sameShown "k"
  have written := follows.written
  rw [found] at written
  unfold FileStore.get at kept
  rw [Except.ok.inj written] at kept
  dsimp only at kept
  rw [follows.shown] at kept
  revert kept
  decide +kernel

end FileStore

end Keypad
