import Keypad.Storage.FileStore

/-!
Contract: what stores keep and what they leave alone.

Owns:
- look-up in slots after an insertion and after a removal;
- the law that a text that was set is found and no other text changed, and its instances;
- the law that a failed change leaves every text as it was.

Does not own: the documents of stores in files.
-/

namespace Keypad

namespace Slots

theorem find?_insertEntry (name value : String) (entries : List (String × String)) :
    (insertEntry name value entries).find? (fun entry => entry.1 = name) = some (name, value) := by
  induction entries with
  | nil => simp [insertEntry]
  | cons first rest inductionHypothesis =>
      unfold insertEntry
      split
      · simp
      · split
        · simp
        next different =>
          rw [List.find?_cons_of_neg (by simpa using Ne.symm different)]
          exact inductionHypothesis

theorem find?_insertEntry_of_ne {name other : String} (different : other ≠ name) (value : String)
    (entries : List (String × String)) :
    (insertEntry name value entries).find? (fun entry => entry.1 = other) =
      entries.find? fun entry => entry.1 = other := by
  induction entries with
  | nil => simp [insertEntry, different.symm]
  | cons first rest inductionHypothesis =>
      unfold insertEntry
      split
      · rw [List.find?_cons_of_neg (by simpa using different.symm)]
      · split
        next same =>
          subst same
          rw [List.find?_cons_of_neg (by simpa using different.symm),
            List.find?_cons_of_neg (by simpa using different.symm)]
        · rw [List.find?_cons, List.find?_cons, inductionHypothesis]

theorem get?_insert (slots : Slots) (name value : String) :
    (slots.insert name value).get? name = some value := by
  show ((insertEntry name value slots.entries).find? _).map Prod.snd = _
  rw [find?_insertEntry]
  rfl

theorem get?_insert_of_ne {name other : String} (slots : Slots) (value : String)
    (different : other ≠ name) : (slots.insert name value).get? other = slots.get? other :=
  congrArg (Option.map Prod.snd) (find?_insertEntry_of_ne different value slots.entries)

theorem get?_erase (slots : Slots) (name : String) : (slots.erase name).get? name = none := by
  simp [get?, erase]

theorem get?_erase_of_ne {name other : String} (slots : Slots) (different : other ≠ name) :
    (slots.erase name).get? other = slots.get? other := by
  have sameFound : (fun entry : String × String =>
      decide (decide (entry.1 ≠ name) = true ∧ decide (entry.1 = other) = true)) =
      fun entry => decide (entry.1 = other) := by
    funext entry
    by_cases same : entry.1 = other
    · simp [same, different]
    · simp [same]
  simp only [get?, erase, List.find?_filter]
  rw [sameFound]

theorem get?_eq_some_iff {slots : Slots} {name value : String} :
    slots.get? name = some value ↔ (name, value) ∈ slots.entries := by
  obtain ⟨entries, ascending⟩ := slots
  unfold get?
  dsimp only
  induction entries with
  | nil => simp
  | cons first rest inductionHypothesis =>
      obtain ⟨before, restAscending⟩ := List.pairwise_cons.mp ascending
      by_cases found : first.1 = name
      · have notLater : (name, value) ∉ rest := by
          intro member
          have later := before _ member
          rw [found] at later
          exact String.lt_irrefl name later
        rw [List.find?_cons_of_pos (by simpa using found), List.mem_cons, or_iff_left notLater]
        subst found
        simp [Prod.ext_iff, eq_comm]
      · have notFirst : (name, value) ≠ first := fun isFirst => found (isFirst ▸ rfl)
        rw [List.find?_cons_of_neg (by simpa using found), List.mem_cons,
          or_iff_right notFirst]
        exact inductionHypothesis restAscending

/-- Slots are told apart by what is found in them. -/
theorem get?_injective {left right : Slots} (same : ∀ name, left.get? name = right.get? name) :
    left = right := by
  have nodup : ∀ slots : Slots, slots.entries.Nodup := by
    intro slots
    refine List.Pairwise.imp ?_ slots.ascending
    rintro entry other before rfl
    exact String.lt_irrefl _ before
  have sameEntries : left.entries = right.entries := by
    refine List.Perm.eq_of_pairwise ?_ left.ascending right.ascending ?_
    · intro entry other _ _ before after
      exact absurd after (String.lt_asymm before)
    · rw [List.perm_ext_iff_of_nodup (nodup left) (nodup right)]
      intro entry
      rw [← get?_eq_some_iff, same, get?_eq_some_iff]
  cases left
  cases right
  cases sameEntries
  rfl

/-- Nothing happens to slots without the name. -/
theorem erase_of_get?_eq_none {slots : Slots} {name : String} (absent : slots.get? name = none) :
    slots.erase name = slots := by
  apply get?_injective
  intro other
  by_cases isName : other = name
  · rw [isName, get?_erase, absent]
  · exact get?_erase_of_ne slots isName

end Slots

/-- A store in which a text that was set is found, and no other text changed. -/
class RetainingStore (σ : Type) [KeyValueStore σ] : Prop where
  get_set {store after : σ} {name value : String} :
    KeyValueStore.set store name value = (.ok (), after) →
      KeyValueStore.get after name = .ok (some value)
  get_set_other {store after : σ} {name value other : String} :
    KeyValueStore.set store name value = (.ok (), after) → other ≠ name →
      KeyValueStore.get after other = KeyValueStore.get store other

/-- A store that a failed change leaves as it was. -/
class SteadyStore (σ : Type) [KeyValueStore σ] : Prop extends RetainingStore σ where
  get_set_error {store after : σ} {name value : String} {fault : FileFault} :
    KeyValueStore.set store name value = (.error fault, after) →
      ∀ other : String, KeyValueStore.get after other = KeyValueStore.get store other

instance : SteadyStore MemoryStore where
  get_set := by
    intro store after name value changed
    cases changed
    exact congrArg Except.ok (Slots.get?_insert ..)
  get_set_other := by
    intro store after name value other changed different
    cases changed
    exact congrArg Except.ok (Slots.get?_insert_of_ne _ _ different)
  get_set_error := by
    intro store after name value fault failed
    cases failed

/-- A store in memory whose changes succeed or fail by a schedule; beyond it they succeed. -/
structure ScheduledStore where
  slots : Slots
  schedule : List Bool

namespace ScheduledStore

/-- The store after a change that the schedule lets succeed or fail. -/
def change (store : ScheduledStore) (slots : Slots) : Except FileFault Unit × ScheduledStore :=
  match store.schedule with
  | false :: rest => (.error (.unavailable "scheduled"), ⟨store.slots, rest⟩)
  | true :: rest => (.ok (), ⟨slots, rest⟩)
  | [] => (.ok (), ⟨slots, []⟩)

instance : KeyValueStore ScheduledStore where
  get store name := .ok (store.slots.get? name)
  set store name value := store.change (store.slots.insert name value)
  remove store name := store.change (store.slots.erase name)

theorem slots_change {store after : ScheduledStore} {slots : Slots}
    {outcome : Except FileFault Unit} (changed : store.change slots = (outcome, after)) :
    after.slots =
      match outcome with
      | .ok () => slots
      | .error _ => store.slots := by
  unfold change at changed
  split at changed <;> cases changed <;> rfl

instance : SteadyStore ScheduledStore where
  get_set := by
    intro store after name value changed
    have slotsEq := slots_change changed
    show Except.ok (after.slots.get? name) = _
    rw [slotsEq, Slots.get?_insert]
  get_set_other := by
    intro store after name value other changed different
    have slotsEq := slots_change changed
    show Except.ok (after.slots.get? other) = Except.ok (store.slots.get? other)
    rw [slotsEq, Slots.get?_insert_of_ne _ _ different]
  get_set_error := by
    intro store after name value fault failed other
    have slotsEq := slots_change failed
    show Except.ok (after.slots.get? other) = Except.ok (store.slots.get? other)
    rw [slotsEq]

end ScheduledStore

namespace FileStore

theorem slots_flush (store : FileStore) : store.flush.2.slots = store.slots := by
  unfold flush
  split
  · rfl
  · split <;> rfl

theorem path_flush (store : FileStore) : store.flush.2.path = store.path := by
  unfold flush
  split
  · rfl
  · split <;> rfl

variable {store after : FileStore} {name value : String} {outcome : Except FileFault Unit}

theorem slots_of_set (changed : store.set name value = (outcome, after)) :
    after.slots = store.slots.insert name value := by
  have slotsEq := slots_flush { store with slots := store.slots.insert name value }
  rw [show flush _ = _ from changed] at slotsEq
  exact slotsEq

/-- The copy in memory answers look-ups, also after a write that failed. -/
theorem get_of_set (changed : store.set name value = (outcome, after)) :
    after.get name = .ok (some value) := by
  unfold get
  rw [slots_of_set changed, Slots.get?_insert]

theorem get_of_set_of_ne {other : String} (changed : store.set name value = (outcome, after))
    (different : other ≠ name) : after.get other = store.get other := by
  unfold get
  rw [slots_of_set changed, Slots.get?_insert_of_ne _ _ different]

end FileStore

/-- A failed write therefore does change what is found. -/
instance : RetainingStore FileStore where
  get_set := FileStore.get_of_set
  get_set_other := FileStore.get_of_set_of_ne

theorem Store.exists_of_set_file {store : FileStore} {after : Store} {name value : String}
    {outcome : Except FileFault Unit}
    (changed : Store.set (.file store) name value = (outcome, after)) :
    ∃ kept, after = .file kept ∧ store.set name value = (outcome, kept) := by
  obtain ⟨rfl, rfl⟩ := Prod.mk.inj changed
  exact ⟨_, rfl, rfl⟩

instance : RetainingStore Store where
  get_set := by
    intro store after name value changed
    cases store with
    | memory store =>
        cases changed
        exact congrArg Except.ok (Slots.get?_insert ..)
    | file store =>
        obtain ⟨kept, rfl, written⟩ := Store.exists_of_set_file changed
        exact FileStore.get_of_set written
    | unavailable reason => cases changed
  get_set_other := by
    intro store after name value other changed different
    cases store with
    | memory store =>
        cases changed
        exact congrArg Except.ok (Slots.get?_insert_of_ne _ _ different)
    | file store =>
        obtain ⟨kept, rfl, written⟩ := Store.exists_of_set_file changed
        exact FileStore.get_of_set_of_ne written different
    | unavailable reason => cases changed

end Keypad
