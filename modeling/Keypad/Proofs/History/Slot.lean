import Keypad.History.Slot
import Keypad.Proofs.History.Codec
import Keypad.Proofs.Storage.Laws

/-!
Contract: a history that is saved is loaded again, up to the value that each number is read back as.

Owns:
- saving and loading of histories with finite numbers only;
- which histories come back unchanged, and one that does not;
- that every history that is loaded has finite numbers only.

Does not own: when a session saves.
-/

namespace Keypad

open Json

/-- The number of an item, if it is one. -/
def Item.number? : Item → Option Binary64
  | .number value => some value
  | .operator _ => none

/-- A change of each element leaves a list as it was when it leaves each element as it was. -/
theorem map_eq_self_iff {α : Type} {change : α → α} {list : List α} :
    list.map change = list ↔ ∀ element ∈ list, change element = element := by
  conv_lhs => rhs; rw [← List.map_id list]
  rw [List.map_inj_left]
  rfl

namespace Calculation

/-- The numbers of a calculation, its result among them. -/
def numbers (calculation : Calculation) : List Binary64 :=
  calculation.result :: calculation.expression.items.filterMap Item.number?

theorem reread_eq_iff (calculation : Calculation) :
    calculation.reread = calculation ↔
      ∀ value ∈ calculation.numbers, Json.reread value = value := by
  obtain ⟨⟨items⟩, result⟩ := calculation
  have item : ∀ item : Item,
      item.reread = item ↔ ∀ value ∈ item.number?, Json.reread value = value := by
    rintro (value | operation) <;> simp [Item.reread, Item.number?]
  simp only [Calculation.reread, Calculation.mk.injEq, Expression.mk.injEq, map_eq_self_iff, item,
    numbers, List.forall_mem_cons, List.mem_filterMap]
  constructor
  · rintro ⟨operands, resultKept⟩
    refine ⟨resultKept, ?_⟩
    rintro value ⟨item, member, isNumber⟩
    exact operands item member value isNumber
  · rintro ⟨resultKept, operands⟩
    exact ⟨fun item member value isNumber => operands value ⟨item, member, isNumber⟩, resultKept⟩

theorem isFinite_of_mem_numbers {calculation : Calculation}
    (encodable : calculation.isEncodable = true) {value : Binary64}
    (member : value ∈ calculation.numbers) : value.isFinite = true := by
  obtain ⟨resultFinite, itemsEncodable⟩ := calculation.isEncodable_iff.mp encodable
  rcases List.mem_cons.mp member with rfl | operand
  · exact resultFinite
  · obtain ⟨item, itemMember, isNumber⟩ := List.mem_filterMap.mp operand
    cases item with
    | number value =>
        cases isNumber
        exact itemsEncodable _ itemMember
    | operator operation => cases isNumber

end Calculation

/-- A size is kept by its text when its fewest digits, rescaled, give it again. -/
def Magnitude.SurvivesText (magnitude : Magnitude) : Prop :=
  rescaled? (magnitude.shortest .toEven) = some (.finite false magnitude)

namespace History

variable {σ : Type} [KeyValueStore σ] {store after : σ} {slot : String}
  {history : List Calculation}

theorem findIdx?_isEncodable (encodable : ∀ calculation ∈ history, calculation.isEncodable = true) :
    (history.findIdx? fun calculation => !calculation.isEncodable) = none := by
  rw [List.findIdx?_eq_none_iff]
  intro calculation member
  rw [encodable calculation member]
  rfl

/-- A history with finite numbers only is offered to the store as its text. -/
theorem trySave_of_isEncodable (store : σ) (slot : String)
    (encodable : ∀ calculation ∈ history, calculation.isEncodable = true) :
    trySave store slot history =
      match KeyValueStore.set store slot (String.ofList (encodeHistory history)) with
      | (.ok (), after) => (.ok (), after)
      | (.error cause, after) => (.error (.storage cause), after) := by
  unfold trySave
  split
  next index found =>
    rw [findIdx?_isEncodable encodable] at found
    cases found
  · rfl

theorem trySave_ne_unencodable (store : σ) (slot : String)
    (encodable : ∀ calculation ∈ history, calculation.isEncodable = true) (index : Nat) :
    (trySave store slot history).1 ≠ .error (.unencodable index) := by
  rw [trySave_of_isEncodable store slot encodable]
  split <;> simp

theorem save_of_isEncodable (store : σ) (slot : String)
    (encodable : ∀ calculation ∈ history, calculation.isEncodable = true) :
    save store slot history =
      (KeyValueStore.set store slot (String.ofList (encodeHistory history))).2 := by
  unfold save
  rw [trySave_of_isEncodable store slot encodable]
  split
  next changed => rw [changed]
  next changed => rw [changed]

theorem tryLoad_of_get
    (encodable : ∀ calculation ∈ history, calculation.isEncodable = true)
    (found : KeyValueStore.get store slot =
      .ok (some (String.ofList (encodeHistory history)))) :
    tryLoad store slot = .ok (history.map Calculation.reread) := by
  unfold tryLoad
  rw [found]
  dsimp only
  rw [decodeHistory_encodeHistory encodable]

/-- A history that is loaded has finite numbers only. -/
theorem isEncodable_of_load (store : σ) (slot : String) :
    ∀ calculation ∈ load store slot, calculation.isEncodable = true := by
  unfold load tryLoad
  split
  next loaded =>
    split at loaded
    · simp at loaded
    · cases loaded
      simp
    · split at loaded
      next decoded =>
        cases loaded
        exact isEncodable_of_decodeHistory decoded
      · simp at loaded
  · simp

theorem map_reread_eq_iff (encodable : ∀ calculation ∈ history, calculation.isEncodable = true) :
    history.map Calculation.reread = history ↔
      ∀ calculation ∈ history, ∀ negative magnitude,
        Binary64.finite negative magnitude ∈ calculation.numbers → magnitude.SurvivesText := by
  rw [map_eq_self_iff]
  refine forall₂_congr fun calculation member => ?_
  rw [Calculation.reread_eq_iff]
  constructor
  · intro kept negative magnitude isNumber
    exact (Json.reread_eq_iff negative magnitude).mp (kept _ isNumber)
  · intro survives value isNumber
    have finite := Calculation.isFinite_of_mem_numbers (encodable calculation member) isNumber
    cases value with
    | nan => cases finite
    | infinite negative => cases finite
    | finite negative magnitude =>
        exact (Json.reread_eq_iff negative magnitude).mpr (survives negative magnitude isNumber)

/-- One divided by eleven. -/
def eleventh : Calculation where
  expression := ⟨[.number (.ofNat 1), .operator .divide, .number (.ofNat 11)]⟩
  result := .ofNat 1 / .ofNat 11

/-- The nearest value to an eleventh. -/
def eleventhSize : Magnitude := ⟨6550690367084358, 1018, by decide⟩

theorem isEncodable_eleventh :
    ∀ calculation ∈ [eleventh], calculation.isEncodable = true := by
  simp only [List.mem_singleton, forall_eq]
  decide +kernel

theorem eleventh_result : eleventh.result = .finite false eleventhSize := by decide +kernel

theorem not_survivesText_eleventhSize : ¬eleventhSize.SurvivesText := by
  have digits : eleventhSize.shortest .toEven = ⟨9090909090909091, -17⟩ := by decide +kernel
  have rescaledEq : rescaled? ⟨9090909090909091, -17⟩ =
      some (.ofNat 9090909090909091 / powerOfTen 17) := by
    unfold rescaled? scale
    rfl
  have apart : Binary64.ofNat 9090909090909091 / powerOfTen 17 ≠ .finite false eleventhSize := by
    decide +kernel
  unfold Magnitude.SurvivesText
  rw [digits, rescaledEq, Option.some.injEq]
  exact apart

/-- A history with finite numbers only, saved to a store that takes it, is loaded with the same
records, items and operators in the same order, each number as it is read back. It is the same
history exactly when every size in it survives its text. -/
theorem tryLoad_after_trySave [RetainingStore σ]
    (encodable : ∀ calculation ∈ history, calculation.isEncodable = true)
    (taken : KeyValueStore.set store slot (String.ofList (encodeHistory history)) =
      (.ok (), after)) :
    trySave store slot history = (.ok (), after) ∧
      tryLoad after slot = .ok (history.map Calculation.reread) ∧
      (tryLoad after slot = .ok history ↔
        ∀ calculation ∈ history, ∀ negative magnitude,
          Binary64.finite negative magnitude ∈ calculation.numbers → magnitude.SurvivesText) := by
  have saved : trySave store slot history = (.ok (), after) := by
    rw [trySave_of_isEncodable store slot encodable, taken]
  have loaded : tryLoad after slot = .ok (history.map Calculation.reread) :=
    tryLoad_of_get encodable (RetainingStore.get_set taken)
  refine ⟨saved, loaded, ?_⟩
  rw [loaded, Except.ok.injEq]
  exact map_reread_eq_iff encodable

theorem tryLoad_after_trySave_eleventh :
    (∀ calculation ∈ [eleventh], calculation.isEncodable = true) ∧
      ∃ after,
        KeyValueStore.set MemoryStore.empty defaultSlot
          (String.ofList (encodeHistory [eleventh])) = (.ok (), after) ∧
        trySave MemoryStore.empty defaultSlot [eleventh] = (.ok (), after) ∧
        tryLoad after defaultSlot = .ok ([eleventh].map Calculation.reread) := by
  have taken : KeyValueStore.set MemoryStore.empty defaultSlot
      (String.ofList (encodeHistory [eleventh])) = (.ok (), _) := rfl
  obtain ⟨saved, loaded, _⟩ := tryLoad_after_trySave isEncodable_eleventh taken
  exact ⟨isEncodable_eleventh, _, taken, saved, loaded⟩

/-- A saved history need not be the one that is loaded, though its numbers are finite and the store
takes it. -/
theorem tryLoad_eleventh :
    eleventh.isEncodable = true ∧
      (trySave MemoryStore.empty defaultSlot [eleventh]).1 = .ok () ∧
      tryLoad (trySave MemoryStore.empty defaultSlot [eleventh]).2 defaultSlot ≠
        .ok [eleventh] := by
  have saved := trySave_of_isEncodable MemoryStore.empty defaultSlot isEncodable_eleventh
  have loaded : tryLoad (trySave MemoryStore.empty defaultSlot [eleventh]).2 defaultSlot =
      .ok ([eleventh].map Calculation.reread) := by
    rw [saved]
    exact tryLoad_of_get isEncodable_eleventh (RetainingStore.get_set rfl)
  refine ⟨isEncodable_eleventh eleventh (List.mem_singleton_self _), by rw [saved]; rfl, ?_⟩
  rw [loaded, ne_eq, Except.ok.injEq, map_reread_eq_iff isEncodable_eleventh]
  intro survive
  refine not_survivesText_eleventhSize
    (survive eleventh (List.mem_singleton_self _) false eleventhSize ?_)
  rw [← eleventh_result]
  exact List.mem_cons_self ..

end History

end Keypad
