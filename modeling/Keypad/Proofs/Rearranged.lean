import Keypad.Proofs.History.Records
import Keypad.Settings

/-!
Contract: neither the order of the members nor members of unknown names matter.

Owns:
- the table of fields of settings;
- that items, calculations and settings are decoded from a rearranged text as from the text.

Does not own: records in arrays, which of several faults is reported.
-/

namespace Keypad

open Json

namespace Settings

/-- The fields of settings. -/
def Fields.table : List (RecordField Fields) :=
  [{ name := "history_key"
     Value := String
     reader := text .text
     kept := Fields.historySlot
     keep := fun value fields => { fields with historySlot := some value } },
   { name := "error_token"
     Value := String
     reader := text .text
     kept := Fields.errorToken
     keep := fun value fields => { fields with errorToken := some value } },
   { name := "max_fraction_digits"
     Value := UInt64
     reader := count
     kept := Fields.maxFractionDigits
     keep := fun value fields => { fields with maxFractionDigits := some value } },
   { name := "store_path"
     Value := Option String
     reader := optional (text .path)
     kept := Fields.storePath
     keep := fun value fields => { fields with storePath := some value } }]

theorem Fields.isTable : RecordField.IsTable table where
  steady := by
    simp only [table, List.forall_mem_cons]
    exact ⟨steady_text .text, steady_text .text, steady_count, (steady_text .path).optional,
      List.forall_mem_nil _⟩
  filled := by
    simp only [table, List.forall_mem_cons]
    exact ⟨fun _ _ => rfl, fun _ _ => rfl, fun _ _ => rfl, fun _ _ => rfl, List.forall_mem_nil _⟩
  independent := by
    simp only [table, List.pairwise_cons, List.forall_mem_cons]
    refine ⟨⟨?_, ?_, ?_, List.forall_mem_nil _⟩, ⟨?_, ?_, List.forall_mem_nil _⟩,
      ⟨?_, List.forall_mem_nil _⟩, List.forall_mem_nil _, .nil⟩ <;>
      exact ⟨fun _ _ => rfl, fun _ _ => rfl, fun _ _ _ => rfl⟩

theorem follows_settings :
    Follows Fields.table .none (fun fields => .ok fields.toSettings) reader :=
  Fields.isTable.follows_record Fields.ofElements_length
    fun read => Nat.le_of_lt (membersFrom_length read)

end Settings

/-- A text that is rearranged, with members of unknown names anywhere in it, is decoded to the same
item, calculation or settings, and refused where the text is refused. -/
theorem decode_rearranged {text other : String} :
    (Rearranges ["number", "operator"] text other →
        ∀ item, Item.decode other = .ok item ↔ Item.decode text = .ok item) ∧
      (Rearranges ["expression", "result"] text other →
        ∀ calculation,
          Calculation.decode other = .ok calculation ↔ Calculation.decode text = .ok calculation) ∧
      (Rearranges ["history_key", "error_token", "max_fraction_digits", "store_path"] text other →
        ∀ settings, Settings.decode other = .ok settings ↔ Settings.decode text = .ok settings) :=
  ⟨fun rearranges => ItemMembers.isTable.readAll_iff follows_item rearranges,
    fun rearranges => CalculationMembers.isTable.readAll_iff follows_calculation rearranges,
    fun rearranges => Settings.Fields.isTable.readAll_iff Settings.follows_settings rearranges⟩

/-- A number out of range. -/
def hugeNumber : List Char := ['-', '1', 'E', '+', '9', '9', '9']

theorem isValue_hugeNumber : IsValue hugeNumber := by
  have nines : IsDigits ['9', '9', '9'] := ⟨by simp, by simp⟩
  have wellFormed : NumberLiteral.WellFormed ⟨true, ['1'], none, some ⟨false, ['9', '9', '9']⟩⟩ :=
    ⟨⟨by simp, by simp⟩, by simp, by simp, by simpa using nines⟩
  exact .number ⟨_, .parts wellFormed (.present (.inr rfl) .plus nines)⟩

/-- A string that stands for no characters. -/
def loneSurrogate : List Char := ['"', '\\', 'u', 'd', 'F', 'F', 'f', '"']

theorem isValue_loneSurrogate : IsValue loneSurrogate := by
  have quad : SpellsUnit ['d', 'F', 'F', 'f'] (((13 * 16 + 15) * 16 + 15) * 16 + 15) :=
    .quad rfl rfl rfl rfl
  exact .string ⟨_, rfl, .number quad .nil⟩

/-- A value that no reader would take, inside others. -/
def unreadable : List Char :=
  writeArray [writeObject [("", writeArray [hugeNumber, loneSurrogate])]]

theorem isValue_unreadable : IsValue unreadable := by
  have inner : IsValue (writeArray [hugeNumber, loneSurrogate]) :=
    isValue_writeArray (by simp [isValue_hugeNumber, isValue_loneSurrogate])
  have object : IsValue (writeObject [("", writeArray [hugeNumber, loneSurrogate])]) :=
    (spellsObject_writeObject (by simp [inner])).isValue
  exact isValue_writeArray (by simp [object])

/-- The members the other way round, and such values before, between and behind them. -/
theorem decode_rearranged_unreadable :
    Item.decode (String.ofList (writeObject [("operator", writeText "?"), ("", unreadable),
        ("number", writeNatural 1)])) = .ok (.number (.ofNat 1)) ∧
      Calculation.decode (String.ofList (writeObject [("Result", unreadable),
        ("result", writeNatural 2), ("number", unreadable), ("expression", writeArray [])])) =
          .ok ⟨⟨[]⟩, .ofNat 2⟩ ∧
      Settings.decode (String.ofList (writeObject [("store_path", writeText "/"),
        ("error_token", writeText "E"), ("digits", unreadable)])) =
          .ok { Settings.standard with errorToken := "E", storePath := some "/" } := by
  have symbol (value : String) : IsValue (writeText value) := isValue_writeText value
  have empty : IsValue (writeArray []) := isValue_writeArray (List.forall_mem_nil _)
  have item : Rearranges ["number", "operator"]
      (String.ofList (writeObject [("number", writeNatural 1), ("operator", writeText "?")])) _ :=
    rearranges_writeObject [("", unreadable)]
      (show [("operator", writeText "?"), ("", unreadable), ("number", writeNatural 1)].Perm _ by
        decide +kernel)
      (by simp [isValue_unreadable, isValue_writeNatural, symbol]) (by simp)
  have calculation : Rearranges ["expression", "result"]
      (String.ofList (writeObject [("expression", writeArray []), ("result", writeNatural 2)])) _ :=
    rearranges_writeObject [("Result", unreadable), ("number", unreadable)]
      (show [("Result", unreadable), ("result", writeNatural 2), ("number", unreadable),
        ("expression", writeArray [])].Perm _ by decide +kernel)
      (by simp [isValue_unreadable, isValue_writeNatural, empty]) (by simp)
  have settings : Rearranges ["history_key", "error_token", "max_fraction_digits", "store_path"]
      (String.ofList (writeObject [("error_token", writeText "E"), ("store_path", writeText "/")]))
      _ :=
    rearranges_writeObject [("digits", unreadable)]
      (show [("store_path", writeText "/"), ("error_token", writeText "E"),
        ("digits", unreadable)].Perm _ by decide +kernel)
      (by simp [isValue_unreadable, symbol]) (by simp)
  refine ⟨?_, ?_, ?_⟩
  · exact (decode_rearranged.1 item _).mpr (by decide +kernel)
  · exact (decode_rearranged.2.1 calculation _).mpr (by decide +kernel)
  · exact (decode_rearranged.2.2 settings _).mpr (by decide +kernel)

end Keypad
