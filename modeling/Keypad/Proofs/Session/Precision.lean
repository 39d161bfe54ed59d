import Keypad.Proofs.Json.Nested
import Keypad.Proofs.Session.Run
import Keypad.Proofs.Storage.FileSystem

/-!
Contract: when a run of keys fails because the display cannot lay out its digits.

Owns:
- which values a display cannot lay out;
- that a run fails exactly at an equals key with a finite value, under settings that ask for more
  digits than can be laid out;
- that a file of settings may ask for any number of digits of 64 bits.

Does not own: how values are laid out, other settings in files.
-/

namespace Keypad

theorem NumberFormat.format_eq_error_iff (numberFormat : NumberFormat) (value : Binary64)
    (fault : FormatFault) :
    numberFormat.format value = .error fault ↔
      value.isFinite = true ∧ precisionLimit < numberFormat.maxFractionDigits.toNat := by
  cases fault
  cases value with
  | nan => simp [format, Binary64.isFinite]
  | infinite negative => simp [format, Binary64.isFinite]
  | finite negative magnitude =>
      unfold format
      by_cases fits : numberFormat.maxFractionDigits.toNat ≤ precisionLimit
      · simp [fits]
      · simp [fits, Binary64.isFinite, Nat.lt_of_not_le fits]

namespace Session

variable {σ : Type}

/-- The equals key would give a value. -/
def Answers (session : Session σ) (result : Binary64) : Prop :=
  ∃ value, NumberFormat.parse session.display = some value ∧
    (session.expression.push (.number value)).evaluate = .ok result

variable [KeyValueStore σ]

theorem pressEquals_eq_error_iff (session : Session σ) (fault : FormatFault) :
    session.pressEquals = .error fault ↔
      NumberFormat.precisionLimit < session.format.maxFractionDigits.toNat ∧
        ∃ result, session.Answers result ∧ result.isFinite = true := by
  unfold Answers
  constructor
  · intro failed
    cases read : NumberFormat.parse session.display with
    | none => simp [pressEquals, read] at failed
    | some value =>
        cases evaluated : (session.expression.push (.number value)).evaluate with
        | error zeroDivisor => simp [pressEquals, read, evaluated] at failed
        | ok result =>
            cases formatted : session.format.format result with
            | ok text => simp [pressEquals, read, evaluated, formatted] at failed
            | error formatFault =>
                obtain ⟨finite, beyond⟩ := (NumberFormat.format_eq_error_iff _ _ _).mp formatted
                exact ⟨beyond, result, ⟨value, rfl, evaluated⟩, finite⟩
  · rintro ⟨beyond, result, ⟨value, read, evaluated⟩, finite⟩
    have formatted := (NumberFormat.format_eq_error_iff session.format result fault).mpr
      ⟨finite, beyond⟩
    simp [pressEquals, read, evaluated, formatted]

/-- Only the equals key can fail. -/
theorem press_eq_error_iff (session : Session σ) (key : Key) (fault : FormatFault) :
    session.press key = .error fault ↔ key = .equals ∧ session.pressEquals = .error fault := by
  cases key <;> simp [press]

/-- A run fails with what goes on from it. -/
theorem pressAll_append_error {session middle : Session σ} {keys more : List Key}
    {turns : List (Turn σ)} {fault : FormatFault}
    (first : session.pressAll keys = .ok (turns, middle))
    (second : middle.pressAll more = .error fault) :
    session.pressAll (keys ++ more) = .error fault := by
  induction keys generalizing session turns with
  | nil =>
      cases first
      exact second
  | cons key keys inductionHypothesis =>
      obtain ⟨outcome, after, later, press, ran, rfl⟩ := exists_of_pressAll_cons first
      rw [List.cons_append, pressAll, press]
      dsimp only
      rw [inductionHypothesis ran]

/-- A run fails at the first key that fails. -/
theorem pressAll_eq_error_iff (session : Session σ) (keys : List Key) (fault : FormatFault) :
    session.pressAll keys = .error fault ↔
      ∃ before after turns reached, keys = before ++ .equals :: after ∧
        session.pressAll before = .ok (turns, reached) ∧
        reached.pressEquals = .error fault := by
  constructor
  · intro failed
    induction keys generalizing session with
    | nil => simp [pressAll] at failed
    | cons key keys inductionHypothesis =>
        rw [pressAll] at failed
        split at failed
        next pressFault press =>
          cases failed
          obtain ⟨rfl, fails⟩ := (press_eq_error_iff session key fault).mp press
          exact ⟨[], keys, [], session, rfl, rfl, fails⟩
        next outcome next press =>
          split at failed
          next laterFault later =>
            cases failed
            obtain ⟨before, after, turns, reached, rfl, ran, fails⟩ := inductionHypothesis next later
            exact ⟨key :: before, after, _, reached, rfl, pressAll_cons press ran, fails⟩
          · simp at failed
  · rintro ⟨before, after, turns, reached, rfl, ran, fails⟩
    apply pressAll_append_error ran
    rw [pressAll, (press_eq_error_iff reached .equals fault).mpr ⟨rfl, fails⟩]

/-- Beyond the limit a fresh session fails at once, since its zero cannot be laid out. -/
theorem pressAll_equals_of_limit_lt (store : σ) {settings : Settings}
    (beyond : NumberFormat.precisionLimit < settings.maxFractionDigits.toNat) :
    (start store settings).pressAll [.equals] = .error .precisionOutOfRange := by
  have answers : (start store settings).Answers .zero := ⟨.zero, parse_zeroText, rfl⟩
  rw [pressAll_eq_error_iff]
  refine ⟨[], [], [], start store settings, rfl, rfl, ?_⟩
  rw [pressEquals_eq_error_iff]
  exact ⟨beyond, .zero, answers, rfl⟩

/-- Whatever the settings and the store, a run fails exactly when it comes to an equals key with a
finite value while the settings ask for more digits than can be laid out. So every run succeeds, each
key with an outcome, exactly when they ask for no more. -/
theorem start_fails_iff (store : σ) (settings : Settings) :
    (∀ keys fault, (start store settings).pressAll keys = .error fault ↔
      NumberFormat.precisionLimit < settings.maxFractionDigits.toNat ∧
        ∃ before after turns reached result, keys = before ++ .equals :: after ∧
          (start store settings).pressAll before = .ok (turns, reached) ∧
          reached.Answers result ∧ result.isFinite = true) ∧
      ((∀ keys, ∃ turns final, (start store settings).pressAll keys = .ok (turns, final)) ↔
        settings.maxFractionDigits.toNat ≤ NumberFormat.precisionLimit) := by
  have fails : ∀ keys fault, (start store settings).pressAll keys = .error fault ↔
      NumberFormat.precisionLimit < settings.maxFractionDigits.toNat ∧
        ∃ before after turns reached result, keys = before ++ .equals :: after ∧
          (start store settings).pressAll before = .ok (turns, reached) ∧
          reached.Answers result ∧ result.isFinite = true := by
    intro keys fault
    have sameFormat : ∀ {before turns reached},
        (start store settings).pressAll before = .ok (turns, reached) →
          reached.format = settings.numberFormat :=
      fun ran => ((Reachable.fresh store).pressAll ran).setup.2.1
    rw [pressAll_eq_error_iff]
    constructor
    · rintro ⟨before, after, turns, reached, parts, ran, failed⟩
      obtain ⟨beyond, result, answers, finite⟩ :=
        (pressEquals_eq_error_iff reached fault).mp failed
      rw [sameFormat ran] at beyond
      exact ⟨beyond, before, after, turns, reached, result, parts, ran, answers, finite⟩
    · rintro ⟨beyond, before, after, turns, reached, result, parts, ran, answers, finite⟩
      refine ⟨before, after, turns, reached, parts, ran, ?_⟩
      rw [pressEquals_eq_error_iff, sameFormat ran]
      exact ⟨beyond, result, answers, finite⟩
  refine ⟨fails, ?_, ?_⟩
  · intro succeeds
    by_contra beyond
    obtain ⟨turns, final, ran⟩ := succeeds [.equals]
    rw [pressAll_equals_of_limit_lt store (Nat.lt_of_not_le beyond)] at ran
    cases ran
  · intro fits keys
    cases ran : (start store settings).pressAll keys with
    | ok run => exact ⟨run.1, run.2, rfl⟩
    | error fault => exact absurd ((fails keys fault).mp ran).1 (Nat.not_lt_of_le fits)

end Session

/-! ## Settings in files -/

namespace Settings

open Json

/-- A document that sets nothing but the number of digits. -/
def digitsDocument (digits : UInt64) : String :=
  String.ofList (writeObject [("max_fraction_digits", writeNatural digits.toNat)])

theorem decode_digitsDocument (digits : UInt64) :
    decode (digitsDocument digits) = .ok { standard with maxFractionDigits := digits } := by
  have fits : digits.toNat ≤ naturalLimit := Nat.le_of_lt_succ digits.toNat_lt
  have gathers : Gathers Fields.choose [("max_fraction_digits", writeNatural digits.toNat)] .none
      { Fields.none with maxFractionDigits := some (UInt64.ofNat digits.toNat) } :=
    .cons ((ReadsMember.of_reads (reads_writeNatural fits)).map _) (.nil _)
  have reads : Reads reader (writeObject [("max_fraction_digits", writeNatural digits.toNat)])
      { standard with maxFractionDigits := UInt64.ofNat digits.toNat } :=
    (reads_writeObject Fields.ofElements_length
      (fun read => Nat.le_of_lt (membersFrom_length read))
      (membersFrom_written rfl rfl rfl gathers)).map Fields.toSettings
  rw [UInt64.ofNat_toNat] at reads
  exact reads.readAll

/-- Settings with any number of digits of 64 bits are loaded from some file. -/
theorem exists_load (digits : UInt64) :
    ∃ disk path, load disk path = .ok { standard with maxFractionDigits := digits } := by
  have found : ((FileSystem.bare []).put ["settings.json"]
      (.file (digitsDocument digits).toUTF8)).stat (.ofText "/settings.json") =
        .ok (.file (digitsDocument digits).toUTF8) := rfl
  refine ⟨(FileSystem.bare []).put ["settings.json"] (.file (digitsDocument digits).toUTF8),
    "/settings.json", ?_⟩
  unfold load
  rw [(FileSystem.readText_of_stat found).2]
  dsimp only
  rw [decode_digitsDocument]

end Settings

/-- Settings that are loaded from a file need not be ones under which no run fails. -/
theorem Session.not_pressAll_isOk_of_load :
    ¬∀ (disk : FileSystem) (path : String) (settings : Settings),
      Settings.load disk path = .ok settings → ∀ (store : MemoryStore) (keys : List Key),
        ∃ turns final, (start store settings).pressAll keys = .ok (turns, final) := by
  intro succeeds
  obtain ⟨disk, path, loaded⟩ := Settings.exists_load 65536
  obtain ⟨turns, final, ran⟩ := succeeds disk path _ loaded .empty [.equals]
  rw [pressAll_equals_of_limit_lt MemoryStore.empty (by decide)] at ran
  cases ran

end Keypad
