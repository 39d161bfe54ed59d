import Keypad.Settings
import Keypad.Proofs.Json.Refused
import Keypad.Proofs.Storage.FileSystem

/-!
Contract: settings that were saved are loaded again as they were.

Owns:
- that the document of settings is read as the settings, a path left out included;
- that a file that was written is loaded, whether or not the standard settings may stand in for it.

Does not own: the file system, documents that leave fields out.
-/

namespace Keypad

open Json

namespace Settings

/-! ## Document -/

/-- The members of the document, each with the text of its value. -/
def members (settings : Settings) : List (String × List Char) :=
  [("history_key", writeText settings.historySlot),
    ("error_token", writeText settings.errorToken),
    ("max_fraction_digits", writeNatural settings.maxFractionDigits.toNat),
    ("store_path", settings.storePath.elim nullText writeText)]

theorem encode_eq (settings : Settings) : settings.encode = writeOpenObject settings.members := by
  unfold encode members
  cases settings.storePath <;> rfl

/-- The number of digits is read as it was: it never passes through a binary64 value. -/
theorem readsMember_maxFractionDigits (digits : UInt64) :
    ReadsMember (member count) (writeNatural digits.toNat) digits := by
  have fits : digits.toNat ≤ naturalLimit := Nat.le_of_lt_succ digits.toNat_lt
  have read := ReadsMember.of_reads (reads_writeNatural fits)
  rwa [UInt64.ofNat_toNat] at read

/-- A path is read from its text, and the lack of one from `null`. -/
theorem readsMember_storePath (storePath : Option String) :
    ReadsMember (member (optional (text .path))) (storePath.elim nullText writeText) storePath := by
  cases storePath with
  | some path =>
      apply ReadsMember.of_reads
      exact (reads_writeText .path path).optional
  | none => exact readsMember_null (text .path)

/-- The members of the document are gathered as all four fields. -/
theorem gathers_members (settings : Settings) :
    Gathers Fields.choose settings.members .none
      ⟨some settings.historySlot, some settings.errorToken, some settings.maxFractionDigits,
        some settings.storePath⟩ := by
  have texts (value : String) := ReadsMember.of_reads (reads_writeText .text value)
  apply Gathers.cons ((texts settings.historySlot).map _)
  apply Gathers.cons ((texts settings.errorToken).map _)
  apply Gathers.cons ((readsMember_maxFractionDigits settings.maxFractionDigits).map _)
  apply Gathers.cons ((readsMember_storePath settings.storePath).map _)
  exact .nil _

/-- The document of settings is read as the settings. -/
theorem reads_encode (settings : Settings) : Reads reader settings.encode settings := by
  have begins : beginsValue settings.encode = true := rfl
  have gathered : Reads
      (record "CalculatorConfig" Fields.ofElements (membersFrom Fields.choose .none true)
        Fields.ofElements_length fun read => Nat.le_of_lt (membersFrom_length read))
      settings.encode
      ⟨some settings.historySlot, some settings.errorToken, some settings.maxFractionDigits,
        some settings.storePath⟩ := by
    refine ⟨begins, fun blanks rest all _ => ?_⟩
    obtain ⟨tail, tailBlank, written⟩ := writeOpenObject_eq settings.members
    have startEq : skipBlanks (blanks ++ (settings.encode ++ rest)) = settings.encode ++ rest := by
      rw [skipBlanks_append all]
      exact skipBlanks_of_beginsValue begins rest
    simp only [record, startEq]
    rw [encode_eq, written]
    exact membersFrom_written rfl rfl tailBlank settings.gathers_members rest
  exact gathered.map Fields.toSettings

theorem decode_encode (settings : Settings) :
    decode (String.ofList settings.encode) = .ok settings :=
  settings.reads_encode.readAll

/-! ## File -/

variable {settings : Settings} {disk after : FileSystem} {path : String}

/-- Under the path stands the document that was saved. -/
theorem stat_of_save (saved : settings.save disk path = .ok after) :
    after.stat (.ofText path) = .ok (.file (String.ofList settings.encode).toUTF8) := by
  unfold save FileSystem.writeText at saved
  split at saved
  next written =>
    obtain ⟨directory, name, takes⟩ := FileSystem.exists_takesFile written
    rw [takes.writeBytes] at written
    cases written
    cases saved
    exact (takes.put _).2.1
  · cases saved

/-- Settings that could be saved under a path are loaded from there unchanged. -/
theorem load_of_save (saved : settings.save disk path = .ok after) :
    load after path = .ok settings ∧ loadOrStandard after path = .ok settings := by
  obtain ⟨there, read⟩ := FileSystem.readText_of_stat (stat_of_save saved)
  have loaded : load after path = .ok settings := by
    unfold load
    rw [read]
    dsimp only
    rw [decode_encode]
  refine ⟨loaded, ?_⟩
  unfold loadOrStandard
  rw [if_pos there]
  exact loaded

/-- Settings with an escape in every text, more digits than a binary64 value holds, and the empty
path. -/
def intricate : Settings where
  historySlot := "\"\\\n\x01"
  errorToken := "ü😀"
  maxFractionDigits := 18446744073709551615
  storePath := some ""

theorem load_of_save_intricate :
    ∃ after, intricate.save (.bare ["home"]) "/home/settings.json" = .ok after ∧
      load after "/home/settings.json" = .ok intricate ∧
      loadOrStandard after "/home/settings.json" = .ok intricate := by
  have writable : (intricate.save (.bare ["home"]) "/home/settings.json").isOk = true := by
    decide +kernel
  cases saved : intricate.save (.bare ["home"]) "/home/settings.json" with
  | error fault =>
      rw [saved] at writable
      cases writable
  | ok after => exact ⟨after, rfl, load_of_save saved⟩

end Settings

end Keypad
