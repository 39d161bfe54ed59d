import Keypad.Proofs.History.Guard
import Keypad.Proofs.Json.Everyday

/-!
Contract: what saving and loading does to the numbers of a history.

Owns:
- the numbers of a record before and after, place by place;
- that a number of normal size moves by a small part of it at most;
- that everyday numbers stay as they are, and whole histories of them.

Does not own: sizes below the normal ones.
-/

namespace Keypad

open Json

/-- A value as it is read back: finite, of the same sign, and close to what it was if that was of a
normal size. -/
structure Binary64.MovesLittle (before after : Binary64) : Prop where
  resembles : before.Resembles after
  close : 2 ^ (-1022 : ℤ) ≤ |before.toRat| →
    |after.toRat - before.toRat| ≤ 2 ^ (-50 : ℤ) * |before.toRat|

theorem Binary64.movesLittle_reread {value : Binary64} (finite : value.isFinite = true) :
    value.MovesLittle (reread value) := by
  refine ⟨resembles_reread finite, fun normal => ?_⟩
  cases value with
  | nan => cases finite
  | infinite negative => cases finite
  | finite negative magnitude =>
      obtain ⟨_, size, rereadEq, rescaledEq⟩ := reads_writeNumber negative magnitude
      rw [abs_toRat_finite] at normal ⊢
      have part : (2 : ℚ) ^ (-50 : ℤ) * magnitude.size = magnitude.size / 2 ^ 50 := by
        rw [zpow_neg, ← div_eq_inv_mul]
        rfl
      rw [rereadEq, abs_toRat_sub_toRat, part]
      exact (rescaled?_within normal rescaledEq).abs_sub_le

namespace Calculation

theorem numbers_reread (calculation : Calculation) :
    calculation.reread.numbers = calculation.numbers.map Json.reread := by
  have item : Item.number? ∘ Item.reread = fun item => (Item.number? item).map Json.reread := by
    funext item
    cases item <;> rfl
  show _ :: (calculation.expression.items.map Item.reread).filterMap Item.number? = _
  rw [List.filterMap_map, item, ← List.map_filterMap]
  rfl

/-- What holds between each number and the one that is read back holds place by place. -/
theorem forall₂_numbers_reread {relates : Binary64 → Binary64 → Prop} {calculation : Calculation}
    (related : ∀ value ∈ calculation.numbers, relates value (Json.reread value)) :
    List.Forall₂ relates calculation.numbers calculation.reread.numbers := by
  rw [numbers_reread, List.forall₂_map_right_iff]
  exact List.forall₂_same.mpr related

end Calculation

namespace History

variable {σ : Type} [KeyValueStore σ] {store after : σ} {slot : String}
  {history : List Calculation}

/-- A history with finite numbers only that a store takes is saved and loaded, and what holds
between each number and the one that is read back holds place by place. -/
theorem exists_reloaded [RetainingStore σ] (relates : Binary64 → Binary64 → Prop)
    (related : ∀ value : Binary64, value.isFinite = true → relates value (reread value))
    (encodable : ∀ calculation ∈ history, calculation.isEncodable = true)
    (taken : KeyValueStore.set store slot (String.ofList (encodeHistory history)) =
      (.ok (), after)) :
    trySave store slot history = (.ok (), after) ∧
      ∃ again, tryLoad after slot = .ok again ∧
        List.Forall₂ Calculation.Resembles history again ∧
        List.Forall₂ (fun before after => List.Forall₂ relates before.numbers after.numbers)
          history again := by
  refine ⟨by rw [trySave_of_isEncodable store slot encodable, taken], _,
    tryLoad_of_get encodable (RetainingStore.get_set taken), ?_, ?_⟩
  · rw [List.forall₂_map_right_iff]
    exact List.forall₂_same.mpr fun calculation member =>
      Calculation.resembles_reread (encodable calculation member)
  · rw [List.forall₂_map_right_iff]
    refine List.forall₂_same.mpr fun calculation member =>
      Calculation.forall₂_numbers_reread fun value isNumber => related value ?_
    exact Calculation.isFinite_of_mem_numbers (encodable calculation member) isNumber

/-- A history with finite numbers only, saved to a store that takes it, is loaded with the same
records, items and operators in the same order. Each of its numbers is finite and keeps its sign, and
one of a normal size is moved by at most its part `2 ^ (-50)`. -/
theorem tryLoad_movesLittle [RetainingStore σ]
    (encodable : ∀ calculation ∈ history, calculation.isEncodable = true)
    (taken : KeyValueStore.set store slot (String.ofList (encodeHistory history)) =
      (.ok (), after)) :
    trySave store slot history = (.ok (), after) ∧
      ∃ again, tryLoad after slot = .ok again ∧
        List.Forall₂ Calculation.Resembles history again ∧
        List.Forall₂
          (fun before after => List.Forall₂ Binary64.MovesLittle before.numbers after.numbers)
          history again :=
  exists_reloaded _ (fun _ finite => Binary64.movesLittle_reread finite) encodable taken

/-- The result that is not read back as it was is moved, but little. -/
theorem tryLoad_movesLittle_eleventh :
    (∀ calculation ∈ [eleventh], calculation.isEncodable = true) ∧
      2 ^ (-1022 : ℤ) ≤ |eleventh.result.toRat| ∧
      ∃ after again,
        KeyValueStore.set MemoryStore.empty defaultSlot
          (String.ofList (encodeHistory [eleventh])) = (.ok (), after) ∧
        trySave MemoryStore.empty defaultSlot [eleventh] = (.ok (), after) ∧
        tryLoad after defaultSlot = .ok [again] ∧
        |again.result.toRat - eleventh.result.toRat| ≤
          2 ^ (-50 : ℤ) * |eleventh.result.toRat| := by
  have taken : KeyValueStore.set MemoryStore.empty defaultSlot
      (String.ofList (encodeHistory [eleventh])) = (.ok (), _) := rfl
  have normal : 2 ^ (-1022 : ℤ) ≤ |eleventh.result.toRat| := by
    rw [eleventh_result, Binary64.abs_toRat_finite]
    exact (leastNormal_le_size_iff eleventhSize).mpr (by decide +kernel)
  obtain ⟨saved, reloaded, loaded, resembles, moved⟩ :=
    tryLoad_movesLittle isEncodable_eleventh taken
  cases moved with
  | cons numbers none =>
      cases none
      have result : eleventh.result.MovesLittle _ := (List.forall₂_cons.mp numbers).1
      exact ⟨isEncodable_eleventh, normal, _, _, taken, saved, loaded, result.close normal⟩

/-- In a history with finite numbers only that a store takes, every everyday number is loaded as it
was saved, whatever stands beside it; a history of everyday numbers is loaded as it was saved. -/
theorem tryLoad_everyday [RetainingStore σ]
    (taken : KeyValueStore.set store slot (String.ofList (encodeHistory history)) =
      (.ok (), after)) :
    ((∀ calculation ∈ history, calculation.isEncodable = true) →
      trySave store slot history = (.ok (), after) ∧
        ∃ again, tryLoad after slot = .ok again ∧
          List.Forall₂ Calculation.Resembles history again ∧
          List.Forall₂
            (fun before after => List.Forall₂ (fun value reloaded =>
              value.IsEveryday → reloaded = value) before.numbers after.numbers)
            history again) ∧
      ((∀ calculation ∈ history, ∀ value ∈ calculation.numbers, value.IsEveryday) →
        trySave store slot history = (.ok (), after) ∧ tryLoad after slot = .ok history) := by
  constructor
  · intro encodable
    exact exists_reloaded _ (fun _ _ everyday => reread_of_isEveryday everyday) encodable taken
  · intro everyday
    have encodable : ∀ calculation ∈ history, calculation.isEncodable = true := by
      intro calculation member
      rw [Calculation.isEncodable_iff_numbers]
      exact fun value isNumber => (everyday calculation member value isNumber).isFinite
    have unchanged : history.map Calculation.reread = history := by
      rw [map_eq_self_iff]
      intro calculation member
      rw [Calculation.reread_eq_iff]
      exact fun value isNumber => reread_of_isEveryday (everyday calculation member value isNumber)
    have loaded := tryLoad_of_get encodable (RetainingStore.get_set taken)
    rw [unchanged] at loaded
    exact ⟨by rw [trySave_of_isEncodable store slot encodable, taken], loaded⟩

/-- A tenth times forty-two, and a negative zero. -/
def everydayHistory : List Calculation :=
  [⟨⟨[.number (.ofDecimal false 1 (-1)), .operator .multiply, .number (.ofNat 42)]⟩,
      .ofDecimal false 1 (-1) * .ofNat 42⟩,
    ⟨⟨[.number (.finite true .zero)]⟩, .finite true .zero⟩]

theorem isEveryday_everydayHistory :
    ∀ calculation ∈ everydayHistory, ∀ value ∈ calculation.numbers, value.IsEveryday := by
  have tenth : Binary64.ofDecimal false 1 (-1) =
      .finite false ⟨7205759403792794, 1018, by decide⟩ := by
    decide +kernel
  have factor : Binary64.ofDecimal false 42 0 =
      .finite false ⟨5910974510923776, 1027, by decide⟩ := by
    decide +kernel
  have factorEq : Binary64.ofNat 42 = Binary64.ofDecimal false 42 0 := by decide +kernel
  have result : Binary64.ofDecimal false 42 (-1) =
      .finite false ⟨4728779608739021, 1024, by decide⟩ := by
    decide +kernel
  have resultEq : Binary64.ofDecimal false 1 (-1) * Binary64.ofNat 42 =
      Binary64.ofDecimal false 42 (-1) := by
    decide +kernel
  have tenthEveryday : (Binary64.ofDecimal false 1 (-1)).IsEveryday :=
    Binary64.isEveryday_of_ofDecimal (by decide) tenth (by decide +kernel) (by decide +kernel)
  have factorEveryday : (Binary64.ofNat 42).IsEveryday := by
    rw [factorEq]
    exact Binary64.isEveryday_of_ofDecimal (by decide) factor (by decide +kernel)
      (by decide +kernel)
  have resultEveryday : (Binary64.ofDecimal false 1 (-1) * Binary64.ofNat 42).IsEveryday := by
    rw [resultEq]
    exact Binary64.isEveryday_of_ofDecimal (by decide) result (by decide +kernel)
      (by decide +kernel)
  simp only [everydayHistory, Calculation.numbers, Item.number?, List.forall_mem_cons,
    List.filterMap_cons, List.filterMap_nil, List.not_mem_nil, false_implies, implies_true,
    and_true]
  exact ⟨⟨resultEveryday, tenthEveryday, factorEveryday⟩, .zero true, .zero true⟩

theorem tryLoad_everyday_product :
    ∃ after,
      KeyValueStore.set MemoryStore.empty defaultSlot
        (String.ofList (encodeHistory everydayHistory)) = (.ok (), after) ∧
      trySave MemoryStore.empty defaultSlot everydayHistory = (.ok (), after) ∧
      tryLoad after defaultSlot = .ok everydayHistory := by
  have taken : KeyValueStore.set MemoryStore.empty defaultSlot
      (String.ofList (encodeHistory everydayHistory)) = (.ok (), _) := rfl
  obtain ⟨saved, loaded⟩ := (tryLoad_everyday taken).2 isEveryday_everydayHistory
  exact ⟨_, taken, saved, loaded⟩

end History

end Keypad
