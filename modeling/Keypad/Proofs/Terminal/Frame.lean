import Keypad.Proofs.Session.Run
import Keypad.Proofs.Storage.Document
import Keypad.Proofs.Storage.Frame
import Keypad.Proofs.Terminal.Commands
import Keypad.Terminal.Program

/-!
Contract: what a run of the program may touch.

A run is its keys, and a key changes the store only when it records a calculation; the store then
touches nothing but its file.

Owns:
- the keys of an input, and that a run presses them from the first on;
- that a session without a recorded calculation leaves its store as it was;
- that a run touches the file of its store only, and only after a calculation was recorded.

Does not own: what is written, when writing succeeds.
-/

namespace Keypad

/-! ## The keys of a run -/

/-- The key that a command presses. -/
def Command.key? : Command → Option Key
  | .key pressed => some pressed
  | .history => none
  | .quit => none

namespace Console

variable {σ : Type}

/-- The keys among commands, up to the first quit. -/
def keysOf (commands : List Command) : List Key := (beforeQuit commands).filterMap Command.key?

theorem keysOf_history (commands : List Command) :
    keysOf (.history :: commands) = keysOf commands := rfl

theorem keysOf_key (key : Key) (commands : List Command) :
    keysOf (.key key :: commands) = key :: keysOf commands := rfl

/-- The keys typed in an input, up to the first quit or the first line that is no text. -/
def keysTyped (input : List UInt8) : List Key := keysOf (commandsOf input)

section Runs

variable [KeyValueStore σ]

/-- The session that lines of bytes leave is the one that their commands leave. -/
theorem session_foldl_takeLine (console : Console σ) (lines : List (List UInt8)) :
    (lines.foldl takeLine console).session =
      ((commandsOfLines lines).foldl carryOut console).session := by
  induction lines generalizing console with
  | nil => rfl
  | cons line later inductionHypothesis =>
      by_cases ended : console.ending.isSome = true
      · rw [foldl_takeLine_of_ended ended, foldl_carryOut_of_ended ended]
      · cases decoded : String.fromUTF8? ⟨line.toArray⟩ with
        | none =>
            have taken : console.takeLine line = { console with ending := some .invalidText } := by
              unfold takeLine
              rw [if_neg ended, decoded]
            have last : commandsOfLines (line :: later) = [] := by
              rw [commandsOfLines, decoded]
            have stops : ({ console with ending := some .invalidText } : Console σ).ending.isSome =
                true := rfl
            rw [List.foldl_cons, taken, foldl_takeLine_of_ended stops, last]
            rfl
        | some text =>
            have taken : console.takeLine line = console.typeLine text.toList := by
              unfold takeLine
              rw [if_neg ended, decoded]
            have parts : commandsOfLines (line :: later) =
                commands text.toList ++ commandsOfLines later := by
              rw [commandsOfLines, decoded]
            -- The display that the line prints is all that tells the two consoles apart.
            have sameWork : ((commandsOfLines later).foldl carryOut
                  (console.typeLine text.toList)).withoutDisplays =
                ((commandsOfLines (line :: later)).foldl carryOut console).withoutDisplays := by
              rw [withoutDisplays_foldl_carryOut, withoutDisplays_typeLine, ← List.foldl_append,
                withoutDisplays_foldl_carryOut, parts]
            have sameSession := congrArg Console.session sameWork
            rw [List.foldl_cons, taken, inductionHypothesis]
            exact sameSession

/-- Commands press their keys from the first on, until they run out or a key fails. -/
theorem exists_pressAll (console : Console σ) (running : console.ending = none)
    (commands : List Command) :
    ∃ pressed turns, pressed <+: keysOf commands ∧
      console.session.pressAll pressed =
        .ok (turns, (commands.foldl carryOut console).session) := by
  induction commands generalizing console with
  | nil => exact ⟨[], [], List.nil_prefix, rfl⟩
  | cons command commands inductionHypothesis =>
      rw [List.foldl_cons]
      cases command with
      | quit =>
          rw [carryOut_quit running, foldl_carryOut_of_ended rfl]
          exact ⟨[], [], List.nil_prefix, rfl⟩
      | history =>
          rw [carryOut_history running, keysOf_history]
          exact inductionHypothesis (console.print (listing console.session)) running
      | key key =>
          rw [carryOut_key running]
          cases press : console.session.press key with
          | error fault =>
              dsimp only
              rw [foldl_carryOut_of_ended rfl]
              exact ⟨[], [], List.nil_prefix, rfl⟩
          | ok pair =>
              obtain ⟨outcome, after⟩ := pair
              obtain ⟨pressed, turns, isPrefix, ran⟩ :=
                inductionHypothesis { console with session := after } running
              have more : key :: pressed <+: keysOf (.key key :: commands) := by
                rw [keysOf_key]
                exact (List.prefix_cons_inj key).mpr isPrefix
              exact ⟨key :: pressed, _, more, Session.pressAll_cons press ran⟩

/-- A run presses keys of its input from the first on. -/
theorem exists_pressAll_drive (session : Session σ) (input : List UInt8) :
    ∃ pressed turns, pressed <+: keysTyped input ∧
      session.pressAll pressed = .ok (turns, (drive session input).session) := by
  rw [drive_eq, session_foldl_takeLine]
  exact exists_pressAll (start session) rfl (commandsOf input)

end Runs

end Console

/-! ## The store of a run -/

namespace Store

theorem confined_save (store : Store) (slot : String) (history : List Calculation) :
    Confined store (History.save store slot history) := by
  have confined := confined_set store slot (String.ofList (encodeHistory history))
  unfold History.save History.trySave
  split
  · exact .refl store
  · split
    next changed =>
      rw [show Store.set _ _ _ = _ from changed] at confined
      exact confined
    next changed =>
      rw [show Store.set _ _ _ = _ from changed] at confined
      exact confined

variable {after : Store}

theorem Confined.diskAfter_memory {store : MemoryStore} (confined : Confined (.memory store) after)
    (disk : FileSystem) : after.diskAfter disk = disk := by
  cases confined
  rfl

theorem Confined.diskAfter_file {store : FileStore} (confined : Confined (.file store) after)
    (disk : FileSystem) :
    FileStore.ConfinedTo store.path store.disk (after.diskAfter disk) := by
  cases confined with
  | file _ confinedDisk => exact confinedDisk

end Store

namespace Session

variable {σ : Type} [KeyValueStore σ]

/-- Whether an equals key among some keys completes a calculation of finite numbers, where keys are
pressed from the first on. -/
def Completes (session : Session σ) (keys : List Key) : Prop :=
  ∃ pressed turns final, pressed <+: keys ∧ session.pressAll pressed = .ok (turns, final) ∧
    ∃ turn ∈ turns, ∃ calculation, turn.key = .equals ∧
      turn.outcome = .ok (some calculation.result) ∧ turn.recorded = some calculation ∧
      calculation.isEncodable = true

/-- Keys that record nothing leave the store as it was. -/
theorem store_of_pressAll {session final : Session σ} {keys : List Key} {turns : List (Turn σ)}
    (ran : session.pressAll keys = .ok (turns, final))
    (nothing : ∀ turn ∈ turns, turn.recorded = none) : final.store = session.store := by
  induction keys generalizing session turns with
  | nil =>
      cases ran
      rfl
  | cons key keys inductionHypothesis =>
      obtain ⟨outcome, after, later, pressed, ranLater, rfl⟩ := exists_of_pressAll_cons ran
      obtain ⟨nothingNow, nothingLater⟩ := List.forall_mem_cons.mp nothing
      rw [inductionHypothesis ranLater nothingLater]
      cases (press_advances pressed).2 with
      | idle _ _ store => exact store
      | recording recorded _ _ _ _ =>
          rw [nothingNow] at recorded
          cases recorded

/-- Without a completed calculation the store stays as it was. -/
theorem store_of_not_completes {session final : Session σ} {keys pressed : List Key}
    {turns : List (Turn σ)} (isPrefix : pressed <+: keys)
    (ran : session.pressAll pressed = .ok (turns, final)) (nothing : ¬session.Completes keys) :
    final.store = session.store := by
  apply store_of_pressAll ran
  intro turn member
  cases recorded : turn.recorded with
  | none => rfl
  | some calculation =>
      obtain ⟨isEquals, answers, encodable, _⟩ := Turn.answered_of_recorded recorded
      exact absurd ⟨pressed, turns, final, isPrefix, ran, turn, member, calculation, isEquals,
        answers, recorded, encodable⟩ nothing

/-- Whatever keys do to the store, it touches its own file only. -/
theorem confined_pressAll {session final : Session Store} {keys : List Key}
    {turns : List (Turn Store)} (ran : session.pressAll keys = .ok (turns, final)) :
    Store.Confined session.store final.store := by
  induction keys generalizing session turns with
  | nil =>
      cases ran
      exact .refl final.store
  | cons key keys inductionHypothesis =>
      obtain ⟨outcome, after, later, pressed, ranLater, rfl⟩ := exists_of_pressAll_cons ran
      have confined : Store.Confined session.store after.store := by
        cases (press_advances pressed).2 with
        | idle _ _ store =>
            dsimp only at store
            rw [store]
            exact .refl session.store
        | recording _ _ _ _ store =>
            dsimp only at store
            rw [store]
            exact Store.confined_save session.store session.slot after.history
      exact confined.trans (inductionHypothesis ranLater)

end Session

namespace Program

variable {arguments : List String} {environment : Environment} {disk : FileSystem}
  {input : List UInt8} {options : Options}

/-- The path of the store that a run opens: the one among the options, else the one of its
configuration, else the usual one. -/
def storePath? (environment : Environment) (options : Options) (configuration : Settings) :
    Option String :=
  options.storePath.or
    (configuration.storePath.or environment.usualStorePath?)

theorem resolvedStorePath?_eq (environment : Environment) (options : Options)
    (configuration : Settings) :
    Settings.resolvedStorePath?
        { configuration with storePath := options.storePath.or configuration.storePath }
        environment.usualStorePath? =
      storePath? environment options configuration := by
  unfold Settings.resolvedStorePath? storePath?
  cases options.storePath <;> cases configuration.storePath <;> rfl

/-- What a run opens: a store in memory, or the file that its path names. -/
inductive Opens (disk : FileSystem) (environment : Environment) (options : Options)
    (configuration : Settings) : Store → Prop where
  | memory (asked : options.memory = true) :
      Opens disk environment options configuration (.memory .empty)
  | file {store : FileStore} (notInMemory : options.memory = false)
      (path : storePath? environment options configuration = some store.path)
      (opened : FileStore.openAt disk store.path = .ok store) :
      Opens disk environment options configuration (.file store)

theorem opens_of_openStore {configuration : Settings} {store : Store}
    (opened : openStore disk environment.usualStorePath? options
      { configuration with storePath := options.storePath.or configuration.storePath } =
        .ok store) : Opens disk environment options configuration store := by
  unfold openStore at opened
  rw [resolvedStorePath?_eq] at opened
  split at opened
  next asked =>
    cases opened
    exact .memory asked
  next notAsked =>
    split at opened
    · cases opened
    next path resolved =>
      cases isOpened : FileStore.openAt disk path with
      | error fault =>
          rw [isOpened] at opened
          cases opened
      | ok fileStore =>
          rw [isOpened] at opened
          cases opened
          have samePath : fileStore.path = path := (FileStore.openAt_eq_ok_iff.mp isOpened).1
          rw [← samePath] at resolved isOpened
          exact .file (by simpa using notAsked) resolved isOpened

theorem exists_of_openSession {session : Session Store}
    (opened : openSession disk environment options = .ok session) :
    ∃ configuration, configured disk options = .ok configuration ∧
      Opens disk environment options configuration session.store := by
  unfold openSession settings at opened
  cases loaded : configured disk options with
  | error fault =>
      rw [loaded] at opened
      cases opened
  | ok configuration =>
      rw [loaded] at opened
      dsimp only [Except.map] at opened
      split at opened
      · cases opened
      next store isOpened =>
        cases opened
        exact ⟨configuration, rfl, opens_of_openStore isOpened⟩

/-- A run that leaves other files than it found has typed keys into a session. -/
theorem exists_of_disk_ne (changed : (run arguments environment disk input).disk ≠ disk) :
    ∃ options session, Request.ofArguments arguments environment = .ok (.start options) ∧
      options.historyOnly = false ∧ openSession disk environment options = .ok session ∧
      (run arguments environment disk input).disk =
        (Console.drive session input).session.store.diskAfter disk := by
  unfold run at changed ⊢
  cases requested : Request.ofArguments arguments environment with
  | error misuse => simp [prepare, requested] at changed
  | ok request =>
      cases request with
      | notice notice => simp [prepare, requested] at changed
      | start options =>
          cases opened : openSession disk environment options with
          | error fault => simp [prepare, requested, opened] at changed
          | ok session =>
              by_cases historyOnly : options.historyOnly = true
              · simp [prepare, requested, opened, historyOnly] at changed
              · have prepared : prepare arguments environment disk =
                    .typing (Console.start session) := by
                  simp [prepare, requested, opened, historyOnly]
                rw [prepared]
                exact ⟨options, session, rfl, by simpa using historyOnly, opened, rfl⟩

theorem confined_drive (session : Session Store) (input : List UInt8) :
    Store.Confined session.store (Console.drive session input).session.store := by
  obtain ⟨_, _, _, ran⟩ := Console.exists_pressAll_drive session input
  exact Session.confined_pressAll ran

/-- A run that leaves other files than it found is on a store in a file. -/
theorem exists_file_of_disk_ne (changed : (run arguments environment disk input).disk ≠ disk) :
    ∃ options configuration session store,
      Request.ofArguments arguments environment = .ok (.start options) ∧
      options.memory = false ∧ options.historyOnly = false ∧
      configured disk options = .ok configuration ∧
      storePath? environment options configuration = some store.path ∧
      openSession disk environment options = .ok session ∧ session.store = .file store ∧
      store.disk = disk ∧
      (run arguments environment disk input).disk =
        (Console.drive session input).session.store.diskAfter disk := by
  obtain ⟨options, session, accepted, notListing, opened, left⟩ := exists_of_disk_ne changed
  obtain ⟨configuration, loaded, opens⟩ := exists_of_openSession opened
  have confined := confined_drive session input
  cases kept : session.store with
  | unavailable reason =>
      rw [kept] at opens
      cases opens
  | memory store =>
      rw [kept] at confined
      rw [left, confined.diskAfter_memory] at changed
      exact absurd rfl changed
  | file store =>
      rw [kept] at opens
      cases opens with
      | file notInMemory path isOpened =>
          have sameDisk : store.disk = disk := (FileStore.openAt_eq_ok_iff.mp isOpened).2.1
          exact ⟨options, configuration, session, store, accepted, notInMemory, notListing, loaded,
            path, opened, kept, sameDisk, left⟩

/-- Whichever directories the platform names, a run changes files only after an equals key completed
a calculation of finite numbers, and then nothing but the file of its store and missing directories
around it. With a store in memory, for a history listing, and when the configuration or the store
cannot be opened it changes nothing. -/
theorem run_touches (arguments : List String) (environment : Environment) (disk : FileSystem)
    (input : List UInt8) :
    ((run arguments environment disk input).disk ≠ disk →
      ∃ options configuration path session,
        Request.ofArguments arguments environment = .ok (.start options) ∧
        options.memory = false ∧ options.historyOnly = false ∧
        configured disk options = .ok configuration ∧
        storePath? environment options configuration = some path ∧
        openSession disk environment options = .ok session ∧
        FileStore.ConfinedTo path disk (run arguments environment disk input).disk ∧
        session.Completes (Console.keysTyped input)) ∧
    ∀ options, Request.ofArguments arguments environment = .ok (.start options) →
      (options.memory = true ∨ options.historyOnly = true ∨
        (∃ fault, settings disk options = .error fault) ∨
        ∃ chosen fault, settings disk options = .ok chosen ∧
          openStore disk environment.usualStorePath? options chosen = .error fault) →
      (run arguments environment disk input).disk = disk := by
  refine ⟨fun changed => ?_, fun options accepted stops => ?_⟩
  · obtain ⟨options, configuration, session, store, accepted, notInMemory, notListing, loaded, path,
      opened, kept, sameDisk, left⟩ := exists_file_of_disk_ne changed
    refine ⟨options, configuration, store.path, session, accepted, notInMemory, notListing, loaded,
      path, opened, ?_, ?_⟩
    · have confined := confined_drive session input
      rw [kept] at confined
      have confinedDisk := confined.diskAfter_file disk
      rw [sameDisk] at confinedDisk
      rw [left]
      exact confinedDisk
    · by_contra nothing
      obtain ⟨pressed, turns, isPrefix, ran⟩ := Console.exists_pressAll_drive session input
      apply changed
      rw [left, Session.store_of_not_completes isPrefix ran nothing, kept]
      exact sameDisk
  · by_contra changed
    obtain ⟨taken, _, session, _, takenToo, notInMemory, notListing, _, _, opened, _⟩ :=
      exists_file_of_disk_ne changed
    cases accepted.symm.trans takenToo
    rcases stops with inMemory | listing | ⟨fault, failed⟩ | ⟨chosen, fault, loaded, failed⟩
    · rw [inMemory] at notInMemory
      cases notInMemory
    · rw [listing] at notListing
      cases notListing
    · simp [openSession, failed] at opened
    · simp [openSession, loaded, failed] at opened

/-- The environment of a user whose directories are not there yet. -/
def newcomer : Environment := ⟨none, none, some "/home/.local/share", some "/home"⟩

/-- A sum leaves a file under the usual path, in directories that were missing; in memory it leaves
nothing. -/
theorem run_touches_sum :
    (run [] newcomer (.bare []) (inputOf "1+2=\n")).disk ≠ .bare [] ∧
      (∃ session,
        openSession (.bare []) newcomer .none = .ok session ∧
        FileStore.ConfinedTo "/home/.local/share/KeyCalc/preferences.json" (.bare [])
          (run [] newcomer (.bare []) (inputOf "1+2=\n")).disk ∧
        session.Completes (Console.keysTyped (inputOf "1+2=\n"))) ∧
      Request.ofArguments ["--memory"] newcomer = .ok (.start ⟨none, none, true, false⟩) ∧
      (run ["--memory"] newcomer (.bare []) (inputOf "1+2=\n")).disk = .bare [] := by
  have inMemory : Request.ofArguments ["--memory"] newcomer =
      .ok (.start ⟨none, none, true, false⟩) := by decide +kernel
  have bare : Request.ofArguments [] newcomer = .ok (.start .none) := by decide +kernel
  have usual : storePath? newcomer .none .standard =
      some "/home/.local/share/KeyCalc/preferences.json" := by decide +kernel
  have placed : (run [] newcomer (.bare []) (inputOf "1+2=\n")).disk.placed.length = 5 := by
    decide +kernel
  have changed : (run [] newcomer (.bare []) (inputOf "1+2=\n")).disk ≠ .bare [] := by
    intro same
    rw [same] at placed
    cases placed
  obtain ⟨options, configuration, path, session, accepted, _, _, loaded, resolved, opened, confined,
    completes⟩ := (run_touches [] newcomer (.bare []) (inputOf "1+2=\n")).1 changed
  cases bare.symm.trans accepted
  cases loaded
  cases usual.symm.trans resolved
  exact ⟨changed, ⟨session, opened, confined, completes⟩, inMemory,
    (run_touches ["--memory"] newcomer (.bare []) (inputOf "1+2=\n")).2 _ inMemory (.inl rfl)⟩

end Program

end Keypad
