import Keypad.Proofs.Session.Run

/-!
Contract: through any run of key presses, whatever becomes of its writes, a session's history and its
slot stay in step.

Owns:
- what a run adds to the history and leaves in the slot;
- a store whose writes succeed or fail by a schedule.

Does not own: restarts.
-/

namespace Keypad

namespace Session

variable {σ : Type} [KeyValueStore σ]

/-- The content of a slot after a run: the text of the history saved last, else what it was. -/
def contentAfter (turns : List (Turn σ)) (initial : Except FileFault (Option String)) :
    Except FileFault (Option String) :=
  match (turns.filterMap Turn.saved).getLast? with
  | some history => .ok (some (String.ofList (encodeHistory history)))
  | none => initial

theorem contentAfter_cons (turn : Turn σ) (turns : List (Turn σ))
    (initial : Except FileFault (Option String)) :
    contentAfter (turn :: turns) initial = contentAfter turns (contentAfter [turn] initial) := by
  unfold contentAfter
  cases saved : turn.saved with
  | none => simp [saved]
  | some history =>
      rw [List.filterMap_cons_some saved, List.getLast?_cons]
      cases last : (turns.filterMap Turn.saved).getLast? <;> simp [saved]

/-- What a run has done to the session that it started from. -/
structure InStep (start : Session σ) (turns : List (Turn σ)) (final : Session σ) : Prop where
  setup : SameSetup start final
  encodable : ∀ calculation ∈ final.history, calculation.isEncodable = true
  saves : ∀ turn ∈ turns, ∀ index,
    (History.trySave turn.before.store start.slot turn.after.history).1 ≠
      .error (.unencodable index)
  history : final.history = start.history ++ turns.filterMap Turn.recorded
  evaluates : ∀ calculation ∈ turns.filterMap Turn.recorded,
    calculation.expression.evaluate = .ok calculation.result
  grows : ∀ turn ∈ turns, turn.after.history = turn.before.history ++ turn.recorded.toList
  slot : KeyValueStore.get final.store start.slot =
    contentAfter turns (KeyValueStore.get start.store start.slot)
  others : ∀ name, name ≠ start.slot →
    KeyValueStore.get final.store name = KeyValueStore.get start.store name

/-- What a save does to the store: it leaves the slot with the content after the turn, whether the
store took the text or not, and the other slots alone. -/
theorem get_of_saved [SteadyStore σ] {turn : Turn σ} {calculation : Calculation}
    (recorded : turn.recorded = some calculation)
    (store : turn.after.store = (KeyValueStore.set turn.before.store turn.before.slot
      (String.ofList (encodeHistory turn.after.history))).2) :
    KeyValueStore.get turn.after.store turn.before.slot =
        contentAfter [turn] (KeyValueStore.get turn.before.store turn.before.slot) ∧
      ∀ name, name ≠ turn.before.slot →
        KeyValueStore.get turn.after.store name = KeyValueStore.get turn.before.store name := by
  rw [store]
  cases changed : KeyValueStore.set turn.before.store turn.before.slot
    (String.ofList (encodeHistory turn.after.history)) with
  | mk result written =>
      cases result with
      | ok _ =>
          have saved : turn.saved = some turn.after.history := by
            simp [Turn.saved, recorded, changed]
          refine ⟨?_, fun name => RetainingStore.get_set_other changed⟩
          rw [RetainingStore.get_set changed]
          simp [contentAfter, saved]
      | error fault =>
          have saved : turn.saved = none := by
            simp [Turn.saved, recorded, changed]
          have unchanged := SteadyStore.get_set_error changed
          refine ⟨?_, fun name _ => unchanged name⟩
          rw [unchanged]
          simp [contentAfter, saved]

/-- One key press keeps the history and the slot in step. -/
theorem inStep_press [SteadyStore σ] {session after : Session σ} {key : Key} {outcome : Outcome}
    (encodable : ∀ calculation ∈ session.history, calculation.isEncodable = true)
    (pressed : session.press key = .ok (outcome, after)) :
    InStep session [⟨session, key, outcome, after⟩] after := by
  obtain ⟨setup, advances⟩ := press_advances pressed
  have afterEncodable := advances.encodable encodable
  dsimp only at afterEncodable
  have saves : ∀ turn ∈ [(⟨session, key, outcome, after⟩ : Turn σ)], ∀ index,
      (History.trySave turn.before.store session.slot turn.after.history).1 ≠
        .error (.unencodable index) := by
    simp only [List.forall_mem_singleton]
    exact History.trySave_ne_unencodable _ _ afterEncodable
  cases advances with
  | idle recorded history store =>
      have saved : Turn.saved ⟨session, key, outcome, after⟩ = none := by
        simp [Turn.saved, recorded]
      dsimp only at history store
      apply InStep.mk setup afterEncodable saves
      · simp [recorded, history]
      · simp [recorded]
      · simp [recorded, history]
      · simp [contentAfter, saved, store]
      · simp [store]
  | recording recorded calculationEncodable evaluates history store =>
      next calculation =>
      rw [History.save_of_isEncodable _ _ afterEncodable] at store
      have kept := get_of_saved recorded store
      dsimp only at history
      apply InStep.mk setup afterEncodable saves
      · simp [recorded, history]
      · simpa [recorded] using evaluates
      · simp [recorded, history]
      · exact kept.1
      · exact kept.2

/-- What two runs do one after the other. -/
theorem InStep.trans {start middle final : Session σ} {turn : Turn σ} {turns : List (Turn σ)}
    (first : InStep start [turn] middle) (rest : InStep middle turns final) :
    InStep start (turn :: turns) final := by
  have slotEq := first.setup.slot
  refine ⟨first.setup.trans rest.setup, rest.encodable, ?_, ?_, ?_, ?_, ?_, ?_⟩
  · intro other member
    rcases List.mem_cons.mp member with rfl | later
    · exact first.saves other (List.mem_singleton_self _)
    · rw [← slotEq]
      exact rest.saves other later
  · rw [rest.history, first.history, List.append_assoc, ← List.filterMap_append]
    rfl
  · intro calculation member
    rw [← List.singleton_append, List.filterMap_append] at member
    rcases List.mem_append.mp member with isFirst | later
    · exact first.evaluates calculation isFirst
    · exact rest.evaluates calculation later
  · intro other member
    rcases List.mem_cons.mp member with rfl | later
    · exact first.grows other (List.mem_singleton_self _)
    · exact rest.grows other later
  · rw [contentAfter_cons, ← first.slot, ← slotEq, rest.slot]
  · intro name different
    rw [rest.others name (slotEq ▸ different), first.others name different]

/-- Through any run the history and the slot stay in step, and no run fails when the display can lay
out its digits. -/
theorem inStep_pressAll [SteadyStore σ] (session : Session σ)
    (digits : session.format.maxFractionDigits.toNat ≤ NumberFormat.precisionLimit)
    (encodable : ∀ calculation ∈ session.history, calculation.isEncodable = true)
    (keys : List Key) :
    ∃ turns final, session.pressAll keys = .ok (turns, final) ∧ InStep session turns final := by
  induction keys generalizing session with
  | nil =>
      refine ⟨[], session, rfl, ⟨rfl, rfl, rfl⟩, encodable, ?_, ?_, ?_, ?_, rfl, fun _ _ => rfl⟩
      all_goals simp
  | cons key keys inductionHypothesis =>
      obtain ⟨outcome, after, pressed⟩ := press_isOk digits key
      have first := inStep_press encodable pressed
      have afterDigits : after.format.maxFractionDigits.toNat ≤ NumberFormat.precisionLimit := by
        rw [first.setup.format]
        exact digits
      obtain ⟨turns, final, ran, rest⟩ := inductionHypothesis after afterDigits first.encodable
      exact ⟨⟨session, key, outcome, after⟩ :: turns, final, pressAll_cons pressed ran,
        first.trans rest⟩

/-- Whatever a store that failed changes leave alone does with its writes, and whatever it holds at
first: every record of a session has finite numbers only, so no save is refused for its numbers; the
records are those loaded at first and one for every equals key that gave a value from finite numbers;
no earlier record changes; the slot holds the records as they stood at the last successful write; and
no other slot changes. -/
theorem start_inStep [SteadyStore σ] (store : σ) (settings : Settings)
    (digits : settings.maxFractionDigits.toNat ≤ NumberFormat.precisionLimit)
    (keys : List Key) :
    ∃ turns final, (start store settings).pressAll keys = .ok (turns, final) ∧
      (∀ calculation ∈ final.history, calculation.isEncodable = true) ∧
      (∀ turn ∈ turns, ∀ index,
        (History.trySave turn.before.store settings.historySlot turn.after.history).1 ≠
          .error (.unencodable index)) ∧
      final.history =
        History.load store settings.historySlot ++ turns.filterMap Turn.recorded ∧
      (∀ calculation ∈ turns.filterMap Turn.recorded,
        calculation.expression.evaluate = .ok calculation.result) ∧
      (∀ turn ∈ turns, turn.after.history = turn.before.history ++ turn.recorded.toList) ∧
      KeyValueStore.get final.store settings.historySlot =
        contentAfter turns (KeyValueStore.get store settings.historySlot) ∧
      ∀ name, name ≠ settings.historySlot →
        KeyValueStore.get final.store name = KeyValueStore.get store name := by
  have loaded := History.isEncodable_of_load store settings.historySlot
  obtain ⟨turns, final, ran, inStep⟩ := inStep_pressAll (start store settings) digits loaded keys
  exact ⟨turns, final, ran, inStep.encodable, inStep.saves, inStep.history, inStep.evaluates,
    inStep.grows, inStep.slot, inStep.others⟩

/-- Two calculations, the save of the first of which fails. -/
theorem start_inStep_scheduled :
    Settings.standard.maxFractionDigits.toNat ≤ NumberFormat.precisionLimit ∧
      ∃ turns final,
        (start (σ := ScheduledStore) ⟨.empty, [false, true]⟩ .standard).pressAll
          [.digit '1', .operator .add, .digit '2', .equals, .digit '3', .equals] =
            .ok (turns, final) ∧
        (∀ calculation ∈ final.history, calculation.isEncodable = true) ∧
        final.history = turns.filterMap Turn.recorded ∧
        KeyValueStore.get final.store History.defaultSlot = contentAfter turns (.ok none) := by
  have digits : Settings.standard.maxFractionDigits.toNat ≤ NumberFormat.precisionLimit := by
    decide
  obtain ⟨turns, final, ran, encodable, _, history, _, _, slot, _⟩ :=
    start_inStep (σ := ScheduledStore) ⟨.empty, [false, true]⟩ .standard digits
      [.digit '1', .operator .add, .digit '2', .equals, .digit '3', .equals]
  exact ⟨digits, turns, final, ran, encodable, history, slot⟩

end Session

end Keypad
