import Keypad.Terminal.Console
import Mathlib.Data.List.Basic

/-!
Contract: what a run does depends on the commands of its input, not on how they are laid out.

Lines only tell when the display is printed. Without the printed displays a run is its commands,
carried out one after the other up to the first quit.

Owns:
- the lines of an input, as bytes and as characters, and the commands in them;
- runs without their displays;
- which inputs do the same work, and that nothing behind a quit matters.

Does not own: what a command does to a session.
-/

namespace Keypad

/-! ## Lines of bytes and of characters -/

/-- The parts of a list up to each separator, and what is left behind the last one if anything is;
`begun` holds the part under way, last element first. -/
def linesFrom {α : Type} [DecidableEq α] (separator : α) (begun : List α) : List α → List (List α)
  | [] => if begun.isEmpty then [] else [begun.reverse]
  | element :: rest =>
      if element = separator then
        begun.reverse :: linesFrom separator [] rest
      else
        linesFrom separator (element :: begun) rest

section Lines

variable {α : Type} [DecidableEq α] {separator : α}

/-- A part that has begun goes on with what follows in its line. -/
theorem linesFrom_of_begun {begun : List α} (nonempty : begun ≠ []) (rest : List α) :
    ∃ more later, linesFrom separator begun rest = (begun.reverse ++ more) :: later := by
  induction rest generalizing begun with
  | nil => exact ⟨[], [], by simp [linesFrom, nonempty]⟩
  | cons element rest inductionHypothesis =>
      by_cases ends : element = separator
      · exact ⟨[], linesFrom separator [] rest, by simp [linesFrom, ends]⟩
      · obtain ⟨more, later, goesOn⟩ := inductionHypothesis (List.cons_ne_nil element begun)
        exact ⟨element :: more, later, by simp [linesFrom, ends, goesOn]⟩

theorem linesFrom_append_of_not_mem {begun part : List α} (inside : separator ∉ part)
    (rest : List α) :
    linesFrom separator begun (part ++ rest) = linesFrom separator (part.reverse ++ begun) rest := by
  induction part generalizing begun with
  | nil => rfl
  | cons element part inductionHypothesis =>
      rw [List.mem_cons, not_or] at inside
      rw [List.cons_append, linesFrom, if_neg (Ne.symm inside.1), inductionHypothesis inside.2]
      simp

end Lines

/-- The byte that ends a line. -/
def lineFeed : UInt8 := 0x0A

/-- The bytes of characters. -/
def utf8 (characters : List Char) : List UInt8 := characters.flatMap String.utf8EncodeChar

/-- The input that a text makes. -/
def inputOf (text : String) : List UInt8 := text.toUTF8.data.toList

theorem inputOf_eq (text : String) : inputOf text = utf8 text.toList := by
  have encoded : text.toByteArray = text.toList.utf8Encode := by
    conv_lhs => rw [← String.ofList_toList (s := text), String.toByteArray_ofList]
  show text.toByteArray.data.toList = _
  rw [encoded]
  simp [List.utf8Encode, utf8]

theorem fromUTF8?_utf8 (characters : List Char) :
    String.fromUTF8? ⟨(utf8 characters).toArray⟩ = some (String.ofList characters) := by
  have bytes : (⟨(utf8 characters).toArray⟩ : ByteArray) = (String.ofList characters).toUTF8 := by
    have input : (inputOf (String.ofList characters)).toArray =
        (String.ofList characters).toUTF8.data := Array.toArray_toList
    apply ByteArray.ext
    rw [← input, inputOf_eq, String.toList_ofList]
  rw [bytes]
  exact dif_pos (String.ofList characters).isValidUTF8

/-- Only plain characters have bytes below 128. -/
theorem le_utf8EncodeChar {character : Char} (large : ¬character.val.toNat ≤ 127) :
    ∀ byte ∈ String.utf8EncodeChar character, 128 ≤ byte.toNat := by
  unfold String.utf8EncodeChar
  dsimp only
  rw [if_neg large]
  split
  · simp only [List.forall_mem_cons, UInt8.toNat_ofNat', List.not_mem_nil, false_imp_iff,
      implies_true, and_true]
    omega
  · split <;>
      simp only [List.forall_mem_cons, UInt8.toNat_ofNat', List.not_mem_nil, false_imp_iff,
        implies_true, and_true] <;>
      omega

theorem lineFeed_not_mem_utf8EncodeChar {character : Char} (different : character ≠ '\n') :
    lineFeed ∉ String.utf8EncodeChar character := by
  intro member
  by_cases small : character.val.toNat ≤ 127
  · have plain : String.utf8EncodeChar character = [UInt8.ofNat character.val.toNat] := if_pos small
    rw [plain, List.mem_singleton] at member
    have sameNumber := congrArg UInt8.toNat member
    rw [UInt8.toNat_ofNat_of_lt' (by show _ < 256; omega)] at sameNumber
    exact different (Char.ext (UInt32.toNat_inj.mp sameNumber.symm))
  · have large := le_utf8EncodeChar small lineFeed member
    revert large
    decide

theorem utf8_eq_nil_iff (characters : List Char) : utf8 characters = [] ↔ characters = [] := by
  cases characters with
  | nil => simp [utf8]
  | cons character characters =>
      have nonempty : String.utf8EncodeChar character ≠ [] := by
        rw [← List.length_pos_iff, String.length_utf8EncodeChar]
        exact character.utf8Size_pos
      simp [utf8, nonempty]

/-- A text is cut into the same lines before and after it is encoded. -/
theorem linesFrom_utf8 (begun rest : List Char) :
    linesFrom lineFeed (utf8 begun.reverse).reverse (utf8 rest) =
      (linesFrom '\n' begun rest).map utf8 := by
  -- A character other than a line break adds all its bytes to the line under way at once.
  induction rest generalizing begun with
  | nil =>
      have encoded : utf8 [] = [] := rfl
      rw [encoded, linesFrom, linesFrom]
      by_cases empty : begun = []
      · simp [empty, encoded]
      · simp [empty, utf8_eq_nil_iff]
  | cons character rest inductionHypothesis =>
      by_cases ends : character = '\n'
      · subst ends
        have encoded : utf8 ('\n' :: rest) = lineFeed :: utf8 rest := rfl
        have fresh := inductionHypothesis []
        rw [encoded, linesFrom, if_pos rfl, List.reverse_reverse, linesFrom, if_pos rfl,
          List.map_cons, ← fresh]
        rfl
      · have encoded : utf8 (character :: rest) =
            String.utf8EncodeChar character ++ utf8 rest := rfl
        have extended : (String.utf8EncodeChar character).reverse ++ (utf8 begun.reverse).reverse =
            (utf8 (character :: begun).reverse).reverse := by
          simp [utf8]
        rw [encoded, linesFrom_append_of_not_mem (lineFeed_not_mem_utf8EncodeChar ends), extended,
          inductionHypothesis, linesFrom, if_neg ends]

namespace Console

variable {σ : Type}

/-! ## Commands of lines -/

theorem commands_append (line more : List Char) :
    commands (line ++ more) = commands line ++ commands more := by
  simp [commands]

theorem commands_lineBreak (rest : List Char) : commands ('\n' :: rest) = commands rest := by
  have blank : Blank.contains '\n' = true := by decide
  simp [commands, blank]

/-- Cutting a text into lines loses no command. -/
theorem commands_linesFrom (begun rest : List Char) :
    (linesFrom '\n' begun rest).flatMap commands = commands (begun.reverse ++ rest) := by
  induction rest generalizing begun with
  | nil =>
      cases begun with
      | nil => rfl
      | cons character begun => simp [linesFrom]
  | cons character rest inductionHypothesis =>
      by_cases ends : character = '\n'
      · subst ends
        rw [linesFrom, if_pos rfl, List.flatMap_cons, inductionHypothesis,
          commands_append begun.reverse, commands_lineBreak]
        rfl
      · rw [linesFrom, if_neg ends, inductionHypothesis, List.reverse_cons, List.append_assoc]
        rfl

/-- The commands of lines of bytes, up to the first line that is no text. -/
def commandsOfLines : List (List UInt8) → List Command
  | [] => []
  | line :: later =>
      match String.fromUTF8? ⟨line.toArray⟩ with
      | some text => commands text.toList ++ commandsOfLines later
      | none => []

/-- The commands of an input. -/
def commandsOf (input : List UInt8) : List Command := commandsOfLines (linesFrom lineFeed [] input)

/-- The commands before the first quit. -/
def beforeQuit (commands : List Command) : List Command := commands.takeWhile (· ≠ .quit)

/-! ## Runs that have ended -/

section Runs

variable [KeyValueStore σ] {console : Console σ}

theorem carryOut_of_ended (ended : console.ending.isSome = true) (command : Command) :
    console.carryOut command = console :=
  if_pos ended

theorem foldl_carryOut_of_ended (ended : console.ending.isSome = true) (commands : List Command) :
    commands.foldl carryOut console = console :=
  List.foldl_fixed' (carryOut_of_ended ended) commands

theorem typeLine_of_ended (ended : console.ending.isSome = true) (line : List Char) :
    console.typeLine line = console := by
  unfold typeLine
  rw [foldl_carryOut_of_ended ended]
  exact if_pos ended

theorem foldl_typeLine_of_ended (ended : console.ending.isSome = true)
    (lines : List (List Char)) : lines.foldl typeLine console = console :=
  List.foldl_fixed' (typeLine_of_ended ended) lines

theorem takeLine_of_ended (ended : console.ending.isSome = true) (line : List UInt8) :
    console.takeLine line = console :=
  if_pos ended

theorem foldl_takeLine_of_ended (ended : console.ending.isSome = true)
    (lines : List (List UInt8)) : lines.foldl takeLine console = console :=
  List.foldl_fixed' (takeLine_of_ended ended) lines

/-! What a command does to a run that has not ended. -/

theorem carryOut_quit (running : console.ending = none) :
    console.carryOut .quit = { console with ending := some .quit } :=
  if_neg (by simp [running])

theorem carryOut_history (running : console.ending = none) :
    console.carryOut .history = console.print (listing console.session) :=
  if_neg (by simp [running])

theorem carryOut_key (running : console.ending = none) (key : Key) :
    console.carryOut (.key key) =
      match console.session.press key with
      | .ok (_, session) => { console with session }
      | .error cause => { console with ending := some (.fault cause) } :=
  if_neg (by simp [running])

/-- After a quit a run has ended. -/
theorem ended_of_quit {commands : List Command} (quits : .quit ∈ commands)
    (console : Console σ) : (commands.foldl carryOut console).ending.isSome = true := by
  induction commands generalizing console with
  | nil => cases quits
  | cons command commands inductionHypothesis =>
      rw [List.foldl_cons]
      by_cases ended : (console.carryOut command).ending.isSome = true
      · rw [foldl_carryOut_of_ended ended]
        exact ended
      · refine inductionHypothesis ((List.mem_cons.mp quits).resolve_left ?_) _
        rintro rfl
        apply ended
        unfold carryOut
        split
        next before => exact before
        · rfl

end Runs

/-! ## Inputs are taken line by line -/

section Lines

variable [KeyValueStore σ]

theorem begun_carryOut (console : Console σ) (command : Command) :
    (console.carryOut command).begun = console.begun := by
  unfold carryOut
  split
  · rfl
  · split
    · rfl
    · rfl
    · split <;> rfl

theorem begun_foldl_carryOut (console : Console σ) (commands : List Command) :
    (commands.foldl carryOut console).begun = console.begun := by
  induction commands generalizing console with
  | nil => rfl
  | cons command commands inductionHypothesis =>
      rw [List.foldl_cons, inductionHypothesis, begun_carryOut]

theorem begun_takeLine (console : Console σ) (line : List UInt8) :
    (console.takeLine line).begun = console.begun := by
  unfold takeLine
  split
  · rfl
  · split
    · unfold typeLine
      dsimp only
      split <;> exact begun_foldl_carryOut console _
    · rfl

omit [KeyValueStore σ] in
theorem withBegun_eq {console : Console σ} (fresh : console.begun = []) :
    { console with begun := [] } = console := by
  cases console
  cases fresh
  rfl

/-- A console takes the lines of what is left of its input, the one under way first. -/
theorem finish_takeBytes (console : Console σ) (input : List UInt8) :
    (console.takeBytes input).finish =
      (linesFrom lineFeed console.begun input).foldl takeLine { console with begun := [] } := by
  induction input generalizing console with
  | nil =>
      unfold finish takeBytes linesFrom
      rw [List.foldl_nil]
      split
      next empty => exact (withBegun_eq (List.isEmpty_iff.mp empty)).symm
      · rfl
  | cons byte input inductionHypothesis =>
      have first : console.takeBytes (byte :: input) = (console.takeByte byte).takeBytes input := rfl
      rw [first, inductionHypothesis, linesFrom]
      by_cases ends : byte = lineFeed
      · have taken : console.takeByte byte =
            takeLine { console with begun := [] } console.begun.reverse := if_pos ends
        have fresh := begun_takeLine { console with begun := [] } console.begun.reverse
        rw [if_pos ends, taken, withBegun_eq fresh, fresh]
        rfl
      · have taken : console.takeByte byte = { console with begun := byte :: console.begun } :=
          if_neg ends
        rw [if_neg ends, taken]

theorem drive_eq (session : Session σ) (input : List UInt8) :
    drive session input = (linesFrom lineFeed [] input).foldl takeLine (start session) :=
  finish_takeBytes (start session) input

theorem takeLine_utf8 (console : Console σ) (line : List Char) :
    console.takeLine (utf8 line) = console.typeLine line := by
  by_cases ended : console.ending.isSome = true
  · rw [takeLine_of_ended ended, typeLine_of_ended ended]
  · unfold takeLine
    rw [if_neg ended, fromUTF8?_utf8]
    dsimp only
    rw [String.toList_ofList]

/-- A text is typed line by line. -/
theorem drive_inputOf (session : Session σ) (text : String) :
    drive session (inputOf text) =
      (linesFrom '\n' [] text.toList).foldl typeLine (start session) := by
  have lines : linesFrom lineFeed [] (utf8 text.toList) =
      (linesFrom '\n' [] text.toList).map utf8 := linesFrom_utf8 [] text.toList
  rw [drive_eq, inputOf_eq, lines, List.foldl_map]
  congr 1
  funext console line
  exact takeLine_utf8 console line

end Lines

/-! ## Runs without their displays -/

end Console

/-- Whether a line belongs to a history listing. -/
def PrintedLine.isListing : PrintedLine → Bool
  | .display _ => false
  | .row _ => true
  | .noHistory => true

namespace Console

variable {σ : Type}

/-- The lines of all history listings that a run printed. -/
def listings (console : Console σ) : List PrintedLine :=
  console.printed.toList.filter PrintedLine.isListing

/-- Why a run failed, if it did; a quit is no failure. -/
def failure (console : Console σ) : Option Ending := console.ending.filter (· ≠ .quit)

/-- A console with the printed displays left out. -/
def withoutDisplays (console : Console σ) : Console σ :=
  { console with printed := console.listings.toArray }

theorem listings_withoutDisplays (console : Console σ) :
    console.withoutDisplays.listings = console.listings := by
  simp [withoutDisplays, listings]

theorem withoutDisplays_print (console : Console σ) (lines : List PrintedLine) :
    (console.print lines).withoutDisplays =
      console.withoutDisplays.print (lines.filter PrintedLine.isListing) := by
  simp [withoutDisplays, listings, print]

/-- A listing has no displays in it. -/
theorem filter_listing (session : Session σ) :
    (listing session).filter PrintedLine.isListing = listing session := by
  rw [List.filter_eq_self]
  intro line member
  unfold listing at member
  split at member
  · rw [List.mem_singleton.mp member]
    rfl
  · obtain ⟨row, _, rfl⟩ := List.mem_map.mp member
    rfl

/-- Two runs that left the same session, listed the same rows, and failed alike if they did. -/
structure SameWork (left right : Console σ) : Prop where
  session : right.session = left.session
  listings : right.listings = left.listings
  failure : right.failure = left.failure

theorem SameWork.symm {left right : Console σ} (same : SameWork left right) :
    SameWork right left :=
  ⟨same.session.symm, same.listings.symm, same.failure.symm⟩

theorem SameWork.trans {first second third : Console σ} (left : SameWork first second)
    (right : SameWork second third) : SameWork first third :=
  ⟨right.session.trans left.session, right.listings.trans left.listings,
    right.failure.trans left.failure⟩

section Work

variable [KeyValueStore σ]

theorem withoutDisplays_carryOut (console : Console σ) (command : Command) :
    (console.carryOut command).withoutDisplays = console.withoutDisplays.carryOut command := by
  by_cases ended : console.ending.isSome = true
  · have endedToo : console.withoutDisplays.ending.isSome = true := ended
    rw [carryOut_of_ended ended, carryOut_of_ended endedToo]
  · have running : console.ending = none := by simpa using ended
    have runningToo : console.withoutDisplays.ending = none := running
    cases command with
    | quit =>
        rw [carryOut_quit running, carryOut_quit runningToo]
        rfl
    | history =>
        rw [carryOut_history running, carryOut_history runningToo, withoutDisplays_print,
          filter_listing]
        rfl
    | key key =>
        have sameSession : console.withoutDisplays.session = console.session := rfl
        rw [carryOut_key running, carryOut_key runningToo, sameSession]
        cases console.session.press key <;> rfl

theorem withoutDisplays_foldl_carryOut (console : Console σ) (commands : List Command) :
    (commands.foldl carryOut console).withoutDisplays =
      commands.foldl carryOut console.withoutDisplays := by
  induction commands generalizing console with
  | nil => rfl
  | cons command commands inductionHypothesis =>
      rw [List.foldl_cons, inductionHypothesis, withoutDisplays_carryOut, List.foldl_cons]

/-- Without the displays, typing a line is carrying out its commands. -/
theorem withoutDisplays_typeLine (console : Console σ) (line : List Char) :
    (console.typeLine line).withoutDisplays =
      (commands line).foldl carryOut console.withoutDisplays := by
  rw [← withoutDisplays_foldl_carryOut]
  unfold typeLine
  dsimp only
  split
  · rfl
  · rw [withoutDisplays_print]
    simp [PrintedLine.isListing, print]

theorem withoutDisplays_foldl_typeLine (console : Console σ) (lines : List (List Char)) :
    (lines.foldl typeLine console).withoutDisplays =
      (lines.flatMap commands).foldl carryOut console.withoutDisplays := by
  induction lines generalizing console with
  | nil => rfl
  | cons line lines inductionHypothesis =>
      rw [List.foldl_cons, inductionHypothesis, withoutDisplays_typeLine, List.flatMap_cons,
        List.foldl_append]

/-- Without the displays, a run over a text is its commands. -/
theorem withoutDisplays_drive (session : Session σ) (text : String) :
    (drive session (inputOf text)).withoutDisplays =
      (commands text.toList).foldl carryOut ⟨session, [], #[], none⟩ := by
  have fresh : (start session).withoutDisplays = ⟨session, [], #[], none⟩ := by
    simp [start, withoutDisplays, listings, PrintedLine.isListing]
  rw [drive_inputOf, withoutDisplays_foldl_typeLine, commands_linesFrom, fresh]
  rfl

/-! ## The same work -/

/-- A quit does no work. -/
theorem sameWork_quit (console : Console σ) : SameWork console (console.carryOut .quit) := by
  by_cases ended : console.ending.isSome = true
  · rw [carryOut_of_ended ended]
    exact ⟨rfl, rfl, rfl⟩
  · have running : console.ending = none := by simpa using ended
    rw [carryOut_quit running]
    refine ⟨rfl, rfl, ?_⟩
    simp [failure, running]

/-- Commands do the same work as those of them before the first quit. -/
theorem sameWork_beforeQuit (console : Console σ) (commands : List Command) :
    SameWork ((beforeQuit commands).foldl carryOut console) (commands.foldl carryOut console) := by
  induction commands generalizing console with
  | nil => exact ⟨rfl, rfl, rfl⟩
  | cons command commands inductionHypothesis =>
      by_cases quits : command = .quit
      · subst quits
        have ended : (console.carryOut .quit).ending.isSome = true :=
          ended_of_quit (List.mem_singleton_self Command.quit) console
        have nothing : beforeQuit (.quit :: commands) = [] := by simp [beforeQuit]
        rw [nothing, List.foldl_cons, foldl_carryOut_of_ended ended]
        exact sameWork_quit console
      · have kept : beforeQuit (command :: commands) = command :: beforeQuit commands := by
          simp [beforeQuit, quits]
        rw [kept, List.foldl_cons, List.foldl_cons]
        exact inductionHypothesis (console.carryOut command)

/-- A run over a text does the work of its commands before the first quit. -/
theorem sameWork_drive (session : Session σ) (text : String) :
    SameWork ((beforeQuit (commands text.toList)).foldl carryOut ⟨session, [], #[], none⟩)
      (drive session (inputOf text)) := by
  have work := sameWork_beforeQuit ⟨session, [], #[], none⟩ (commands text.toList)
  rw [← withoutDisplays_drive] at work
  exact work.trans ⟨rfl, (listings_withoutDisplays _).symm, rfl⟩

/-- Once a quit was typed, nothing that follows is taken, not even to the end of its line. -/
theorem foldl_typeLine_append {begun typed : List Char}
    (quits : .quit ∈ commands (begun.reverse ++ typed)) (later : List Char)
    (console : Console σ) :
    (linesFrom '\n' begun (typed ++ later)).foldl typeLine console =
      (linesFrom '\n' begun typed).foldl typeLine console := by
  -- The quit may stand in the line under way already, so the part that has begun is carried along.
  induction typed generalizing begun console with
  | nil =>
      rw [List.append_nil] at quits
      have nonempty : begun ≠ [] := by
        rintro rfl
        cases quits
      have ended := ended_of_quit quits console
      have stops : console.typeLine begun.reverse =
          (commands begun.reverse).foldl carryOut console := if_pos ended
      obtain ⟨more, lines, goesOn⟩ : ∃ more lines,
          linesFrom '\n' begun later = (begun.reverse ++ more) :: lines :=
        linesFrom_of_begun nonempty later
      have sameLine : console.typeLine (begun.reverse ++ more) = console.typeLine begun.reverse := by
        have sameWork : (commands (begun.reverse ++ more)).foldl carryOut console =
            (commands begun.reverse).foldl carryOut console := by
          rw [commands_append, List.foldl_append, foldl_carryOut_of_ended ended]
        unfold typeLine
        rw [sameWork]
      have alone : linesFrom '\n' begun [] = [begun.reverse] := by simp [linesFrom, nonempty]
      rw [List.nil_append, goesOn, alone, List.foldl_cons, List.foldl_cons, sameLine, stops,
        foldl_typeLine_of_ended ended]
      rfl
  | cons character typed inductionHypothesis =>
      rw [List.cons_append, linesFrom, linesFrom]
      by_cases ends : character = '\n'
      · subst ends
        rw [if_pos rfl, if_pos rfl, List.foldl_cons, List.foldl_cons]
        rw [commands_append, commands_lineBreak, List.mem_append] at quits
        rcases quits with earlier | inRest
        · have stops : console.typeLine begun.reverse =
              (commands begun.reverse).foldl carryOut console :=
            if_pos (ended_of_quit earlier console)
          rw [stops, foldl_typeLine_of_ended (ended_of_quit earlier console),
            foldl_typeLine_of_ended (ended_of_quit earlier console)]
        · apply inductionHypothesis
          exact inRest
      · rw [if_neg ends, if_neg ends]
        apply inductionHypothesis
        rw [List.reverse_cons, List.append_assoc]
        exact quits

end Work

end Console

/-! ## Stand-ins -/

/-- The character on the keypad that a typed character stands in for. -/
def Command.keypadCharacter : Char → Char
  | 'c' => 'C'
  | '-' => '\u2212'
  | '*' => '\u00d7'
  | 'x' => '\u00d7'
  | 'X' => '\u00d7'
  | '/' => '\u00f7'
  | character => character

theorem Command.ofCharacter?_keypadCharacter (character : Char) :
    ofCharacter? (keypadCharacter character) = ofCharacter? character := by
  unfold keypadCharacter
  split <;> rfl

theorem Blank.contains_keypadCharacter (character : Char) :
    Blank.contains (Command.keypadCharacter character) = Blank.contains character := by
  unfold Command.keypadCharacter
  split <;> rfl

namespace Console

/-- A text on one line, with the characters of the keypad in the place of their stand-ins. -/
def onKeypad (characters : List Char) : List Char :=
  (characters.filter (· ≠ '\n')).map Command.keypadCharacter

theorem commands_onKeypad (characters : List Char) :
    commands (onKeypad characters) = commands characters := by
  induction characters with
  | nil => rfl
  | cons character characters inductionHypothesis =>
      by_cases ends : character = '\n'
      · subst ends
        rw [commands_lineBreak, ← inductionHypothesis]
        rfl
      · have parts : onKeypad (character :: characters) =
            [Command.keypadCharacter character] ++ onKeypad characters := by
          simp [onKeypad, ends]
        have single : commands [Command.keypadCharacter character] = commands [character] := by
          simp only [commands, List.filter_singleton, Blank.contains_keypadCharacter]
          cases Blank.contains character with
          | true => rfl
          | false =>
              simp only [Bool.not_false, cond_true, List.filterMap_cons, List.filterMap_nil,
                Command.ofCharacter?_keypadCharacter]
        rw [parts, commands_append, single, inductionHypothesis, ← commands_append]
        rfl

variable {σ : Type} [KeyValueStore σ]

/-- Two texts with the same commands before the first quit do the same work: the sessions that they
leave are the same, and so are the rows that they list. Once a quit was typed, nothing that follows
has any effect. In particular line breaks and stand-ins make no difference. -/
theorem drive_sameWork (session : Session σ) :
    (∀ left right : String,
      beforeQuit (commands left.toList) = beforeQuit (commands right.toList) →
        SameWork (drive session (inputOf left)) (drive session (inputOf right))) ∧
    (∀ text later : String, .quit ∈ commands text.toList →
      drive session (inputOf (text ++ later)) = drive session (inputOf text)) ∧
    ∀ text : String,
      SameWork (drive session (inputOf text))
        (drive session (inputOf (String.ofList (onKeypad text.toList)))) := by
  have sameCommands : ∀ left right : String,
      beforeQuit (commands left.toList) = beforeQuit (commands right.toList) →
        SameWork (drive session (inputOf left)) (drive session (inputOf right)) := by
    intro left right same
    have leftWork := sameWork_drive session left
    have rightWork := sameWork_drive session right
    rw [← same] at rightWork
    exact leftWork.symm.trans rightWork
  refine ⟨sameCommands, fun text later quits => ?_, fun text => ?_⟩
  · rw [drive_inputOf, drive_inputOf, String.toList_append]
    exact foldl_typeLine_append quits later.toList (start session)
  · apply sameCommands
    rw [String.toList_ofList, commands_onKeypad]

/-- The same keys on several lines with stand-ins, and on one line with a quit in it. -/
theorem drive_sameWork_scattered :
    beforeQuit (commands "10/2\r\n x?3 =\nh".toList) = beforeQuit (commands "10÷2×3=Hq7".toList) ∧
      .quit ∈ commands "10÷2×3=Hq".toList ∧
      SameWork
        (drive (Session.start MemoryStore.empty .standard) (inputOf "10/2\r\n x?3 =\nh"))
        (drive (Session.start MemoryStore.empty .standard) (inputOf "10÷2×3=Hq7")) ∧
      drive (Session.start MemoryStore.empty .standard) (inputOf ("10÷2×3=Hq" ++ "7")) =
        drive (Session.start MemoryStore.empty .standard) (inputOf "10÷2×3=Hq") := by
  have same : beforeQuit (commands "10/2\r\n x?3 =\nh".toList) =
      beforeQuit (commands "10÷2×3=Hq7".toList) := by decide +kernel
  have quits : .quit ∈ commands "10÷2×3=Hq".toList := by decide +kernel
  obtain ⟨sameCommands, nothingLater, _⟩ :=
    drive_sameWork (Session.start MemoryStore.empty .standard)
  exact ⟨same, quits, sameCommands _ _ same, nothingLater _ _ quits⟩

end Console

end Keypad
