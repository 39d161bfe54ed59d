import Mathlib.Data.List.Forall2
import Keypad.Proofs.Session.Run
import Keypad.Proofs.Storage.FileStore

/-!
Contract: no restart of a session on a file loses, repeats or reorders a calculation.

Owns:
- calculations that a restart has carried over;
- sessions that live through key presses and restarts;
- that the file stands behind the history all the time.

Does not own: what a history holds besides, paths that cannot be written.
-/

namespace Keypad

open Json

/-! ## Calculations carried over -/

/-- A finite number that stayed, or became the value that its text is read as. -/
structure Binary64.Carried (before after : Binary64) : Prop where
  beforeFinite : before.isFinite = true
  afterFinite : after.isFinite = true
  value : after = before ∨ readAll binary64 (String.ofList (writeNumber before)) = .ok after

/-- An item of the same kind: the same operator, or a number carried over. -/
inductive Item.Carried : Item → Item → Prop where
  | number {before after : Binary64} (carried : before.Carried after) :
      Item.Carried (.number before) (.number after)
  | operator (operation : Operator) : Item.Carried (.operator operation) (.operator operation)

/-- A calculation with its items carried over one by one, and its result. -/
structure Calculation.Carried (before after : Calculation) : Prop where
  items : List.Forall₂ Item.Carried before.expression.items after.expression.items
  result : before.result.Carried after.result

theorem Binary64.Carried.self {value : Binary64} (finite : value.isFinite = true) :
    value.Carried value :=
  ⟨finite, finite, .inl rfl⟩

theorem Binary64.Carried.reread {value : Binary64} (finite : value.isFinite = true) :
    value.Carried (Json.reread value) := by
  obtain ⟨reads, afterFinite⟩ := reads_reread finite
  exact ⟨finite, afterFinite, .inr reads.readAll⟩

namespace Calculation

variable {calculation : Calculation}

theorem Carried.self (encodable : calculation.isEncodable = true) :
    calculation.Carried calculation := by
  obtain ⟨resultFinite, itemsEncodable⟩ := calculation.isEncodable_iff.mp encodable
  refine ⟨List.forall₂_same.mpr fun item member => ?_, .self resultFinite⟩
  cases item with
  | number value => exact .number (.self (itemsEncodable _ member))
  | operator operation => exact .operator operation

theorem Carried.reread (encodable : calculation.isEncodable = true) :
    calculation.Carried calculation.reread := by
  obtain ⟨resultFinite, itemsEncodable⟩ := calculation.isEncodable_iff.mp encodable
  refine ⟨?_, .reread resultFinite⟩
  show List.Forall₂ Item.Carried _ (calculation.expression.items.map Item.reread)
  rw [List.forall₂_map_right_iff]
  refine List.forall₂_same.mpr fun item member => ?_
  cases item with
  | number value => exact .number (.reread (itemsEncodable _ member))
  | operator operation => exact .operator operation

end Calculation

namespace Session

/-! ## Lives of sessions -/

/-- What happens to a session on a file: a key is pressed, or the session is dropped, the file
opened again and a session started on it. -/
inductive Event where
  | press (key : Key)
  | restart

/-- The session after an event, if nothing fails. -/
def afterEvent (path : String) (settings : Settings) (session : Session FileStore) :
    Event → Option (Session FileStore)
  | .press key =>
      match session.press key with
      | .ok (_, after) => some after
      | .error _ => none
  | .restart =>
      match FileStore.openAt session.store.disk path with
      | .ok store => some (start store settings)
      | .error _ => none

/-- The session after some events, if nothing fails. -/
def live (path : String) (settings : Settings) (session : Session FileStore)
    (events : List Event) : Option (Session FileStore) :=
  events.foldlM (afterEvent path settings) session

/-- A session whose file can be written, is opened again as the store of the session, and holds the
history of the session, carried over. -/
structure Backed (path : String) (settings : Settings) (session : Session FileStore) : Prop where
  slot : session.slot = settings.historySlot
  format : session.format = settings.numberFormat
  place : session.store.path = path
  reopens : FileStore.openAt session.store.disk path = .ok session.store
  writable : session.store.IsWritable
  encodable : ∀ calculation ∈ session.history, calculation.isEncodable = true
  stored : List.Forall₂ Calculation.Carried session.history
    (History.load session.store session.slot)

variable {path : String} {settings : Settings} {session : Session FileStore}

theorem backed_start {store : FileStore} (settings : Settings) (samePath : store.path = path)
    (reopens : FileStore.openAt store.disk path = .ok store) (writable : store.IsWritable) :
    Backed path settings (start store settings) where
  slot := rfl
  format := rfl
  place := samePath
  reopens := reopens
  writable := writable
  encodable := History.isEncodable_of_load store settings.historySlot
  stored := List.forall₂_same.mpr fun calculation member =>
    .self (History.isEncodable_of_load store _ calculation member)

/-- A key press succeeds and leaves the session backed by its file. -/
theorem Backed.press (backed : Backed path settings session)
    (digits : settings.maxFractionDigits.toNat ≤ NumberFormat.precisionLimit) (key : Key) :
    ∃ outcome after, session.press key = .ok (outcome, after) ∧ Backed path settings after := by
  have sessionDigits : session.format.maxFractionDigits.toNat ≤ NumberFormat.precisionLimit := by
    rw [backed.format]
    exact digits
  obtain ⟨outcome, after, pressed⟩ := press_isOk sessionDigits key
  obtain ⟨setup, advances⟩ := press_advances pressed
  have slot := setup.slot.trans backed.slot
  have format := setup.format.trans backed.format
  have encodable := advances.encodable backed.encodable
  dsimp only at encodable
  refine ⟨outcome, after, pressed, ?_⟩
  cases advances with
  | idle _ history store =>
      dsimp only at history store
      refine ⟨slot, format, ?_, ?_, ?_, encodable, ?_⟩
      · rw [store, backed.place]
      · rw [store, backed.reopens]
      · rw [store]
        exact backed.writable
      · rw [store, history, setup.slot]
        exact backed.stored
  | recording _ _ _ history store =>
      next calculation =>
      dsimp only at history store
      obtain ⟨written, changed, samePath, writable, reopens⟩ :=
        FileStore.set_of_isWritable backed.writable session.slot
          (String.ofList (encodeHistory after.history))
      have stored : after.store = written := by
        rw [store, History.save_of_isEncodable _ _ encodable]
        exact congrArg Prod.snd changed
      have found : KeyValueStore.get written session.slot =
          .ok (some (String.ofList (encodeHistory after.history))) :=
        RetainingStore.get_set (σ := FileStore) changed
      refine ⟨slot, format, ?_, ?_, ?_, encodable, ?_⟩
      · rw [stored, samePath, backed.place]
      · rw [stored, ← backed.place, ← samePath, reopens]
      · rw [stored]
        exact writable
      · rw [stored, setup.slot, History.load, History.tryLoad_of_get encodable found]
        dsimp only
        rw [List.forall₂_map_right_iff]
        exact List.forall₂_same.mpr fun other member => .reread (encodable other member)

/-- A restart succeeds, leaves the session backed by its file and carries its history over. -/
theorem Backed.restart (backed : Backed path settings session) :
    ∃ after, afterEvent path settings session .restart = some after ∧
      Backed path settings after ∧
      List.Forall₂ Calculation.Carried session.history after.history := by
  refine ⟨start session.store settings, ?_, ?_, ?_⟩
  · unfold afterEvent
    rw [backed.reopens]
  · exact backed_start settings backed.place backed.reopens backed.writable
  · have stored := backed.stored
    rw [backed.slot] at stored
    exact stored

theorem Backed.live (backed : Backed path settings session)
    (digits : settings.maxFractionDigits.toNat ≤ NumberFormat.precisionLimit)
    (events : List Event) :
    ∃ final, Session.live path settings session events = some final ∧
      Backed path settings final := by
  induction events generalizing session with
  | nil => exact ⟨session, rfl, backed⟩
  | cons event events inductionHypothesis =>
      have next : ∃ after, afterEvent path settings session event = some after ∧
          Backed path settings after := by
        cases event with
        | press key =>
            obtain ⟨outcome, after, pressed, afterBacked⟩ := backed.press digits key
            refine ⟨after, ?_, afterBacked⟩
            unfold afterEvent
            dsimp only
            rw [pressed]
        | restart =>
            obtain ⟨after, restarted, afterBacked, _⟩ := backed.restart
            exact ⟨after, restarted, afterBacked⟩
      obtain ⟨after, happened, afterBacked⟩ := next
      obtain ⟨final, lived, finalBacked⟩ := inductionHypothesis afterBacked
      refine ⟨final, ?_, finalBacked⟩
      unfold Session.live
      rw [List.foldlM_cons, happened]
      exact lived

/-- Whatever keys are pressed and however often the session is restarted, on a file that can be
opened and written, no matter what it holds at first: the next restart succeeds, and the session after
it has the calculations of the session before it, in number and order and item by item, each number
carried over. -/
theorem restart_carries {disk : FileSystem} {store : FileStore}
    (opened : FileStore.openAt disk path = .ok store) (written : store.flush.1 = .ok ())
    (digits : settings.maxFractionDigits.toNat ≤ NumberFormat.precisionLimit)
    (events : List Event) :
    ∃ before after, live path settings (start store settings) events = some before ∧
      afterEvent path settings before .restart = some after ∧
      List.Forall₂ Calculation.Carried before.history after.history := by
  have openedAs : store.path = path ∧ store.disk = disk := by
    unfold FileStore.openAt at opened
    split at opened
    · cases opened
      exact ⟨rfl, rfl⟩
    · simp at opened
  have backed : Backed path settings (start store settings) := by
    refine backed_start settings openedAs.1 ?_ (FileStore.isWritable_of_flush written)
    rw [openedAs.2]
    exact opened
  obtain ⟨before, lived, beforeBacked⟩ := backed.live digits events
  obtain ⟨after, restarted, _, carried⟩ := beforeBacked.restart
  exact ⟨before, after, lived, restarted, carried⟩

/-- A file in a directory that is still missing. -/
theorem restart_carries_missing :
    FileStore.openAt (.bare ["home"]) "/home/keypad/slots.json" =
        .ok ⟨"/home/keypad/slots.json", .empty, .bare ["home"]⟩ ∧
      (FileStore.flush ⟨"/home/keypad/slots.json", .empty, .bare ["home"]⟩).1 = .ok () ∧
      ∃ before after,
        live "/home/keypad/slots.json" .standard
            (start ⟨"/home/keypad/slots.json", .empty, .bare ["home"]⟩ .standard)
            [.press (.digit '1'), .press .equals, .restart, .press (.digit '2'), .press .equals] =
          some before ∧
        afterEvent "/home/keypad/slots.json" .standard before .restart = some after ∧
        List.Forall₂ Calculation.Carried before.history after.history := by
  have opened : FileStore.openAt (.bare ["home"]) "/home/keypad/slots.json" =
      .ok ⟨"/home/keypad/slots.json", .empty, .bare ["home"]⟩ := by
    rfl
  have written :
      (FileStore.flush ⟨"/home/keypad/slots.json", .empty, .bare ["home"]⟩).1 = .ok () := by
    decide +kernel
  exact ⟨opened, written, restart_carries opened written (by decide)
    [.press (.digit '1'), .press .equals, .restart, .press (.digit '2'), .press .equals]⟩

end Session

end Keypad
