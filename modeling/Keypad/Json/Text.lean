import Keypad.Json.Fault

/-!
Contract: JSON strings.

Owns:
- the written form of a string, in which only quotation marks, backslashes and control characters
  are escaped;
- reading the inside of a string that is kept;
- passing over the inside of a string that is not kept, where surrogates need no partner.

Does not own: what strings mean to a reader.
-/

namespace Keypad.Json

/-! ## Writing -/

def hexDigit (value : Nat) : Char := Nat.digitChar value

/-- The escaped or plain form of one character. -/
def writeCharacter (character : Char) : List Char :=
  match character with
  | '"' => ['\\', '"']
  | '\\' => ['\\', '\\']
  | '\x08' => ['\\', 'b']
  | '\x0c' => ['\\', 'f']
  | '\n' => ['\\', 'n']
  | '\r' => ['\\', 'r']
  | '\t' => ['\\', 't']
  | other =>
      if other.toNat < 0x20 then
        ['\\', 'u', '0', '0', hexDigit (other.toNat / 16), hexDigit (other.toNat % 16)]
      else
        [other]

/-- The JSON text of a string. -/
def writeText (text : String) : List Char :=
  '"' :: (text.toList.flatMap writeCharacter ++ ['"'])

/-! ## Escapes -/

def hexValue? (character : Char) : Option Nat :=
  if '0' ≤ character ∧ character ≤ '9' then
    some (character.toNat - '0'.toNat)
  else if 'a' ≤ character ∧ character ≤ 'f' then
    some (character.toNat - 'a'.toNat + 10)
  else if 'A' ≤ character ∧ character ≤ 'F' then
    some (character.toNat - 'A'.toNat + 10)
  else
    none

/-- The bytes that characters take in the text. -/
def byteCount (characters : List Char) : Nat :=
  characters.foldl (fun count character => count + character.utf8Size) 0

/-- Reads four hexadecimal digits. A text with fewer than four bytes left ends early. -/
def readHexQuad : List Char → Step Nat
  | first :: second :: third :: fourth :: rest =>
      match hexValue? first, hexValue? second, hexValue? third, hexValue? fourth with
      | some a, some b, some c, some d => .ok (((a * 16 + b) * 16 + c) * 16 + d, rest)
      | _, _, _, _ => .error .malformed
  | short => if byteCount short < 4 then .error .truncated else .error .malformed

def isLeadingSurrogate (unit : Nat) : Bool := 0xD800 ≤ unit && unit ≤ 0xDBFF

def isTrailingSurrogate (unit : Nat) : Bool := 0xDC00 ≤ unit && unit ≤ 0xDFFF

/-- The character beyond the basic plane that two surrogates stand for. -/
def joinSurrogates (leading trailing : Nat) : Char :=
  Char.ofNat ((leading - 0xD800) * 0x400 + (trailing - 0xDC00) + 0x10000)

/-- Reads the number of a trailing surrogate after the `\u` of its escape. -/
def readPartner (leading : Nat) (text : List Char) : Step Char :=
  match readHexQuad text with
  | .ok (trailing, rest) =>
      if isTrailingSurrogate trailing then
        .ok (joinSurrogates leading trailing, rest)
      else
        .error .malformed
  | .error fault => .error fault

/-- Reads the escape of a trailing surrogate after a leading one. -/
def readTrailing (leading : Nat) : List Char → Step Char
  | [] => .error .truncated
  | [backslash] => .error (if backslash = '\\' then .truncated else .malformed)
  | backslash :: letter :: rest =>
      if backslash = '\\' ∧ letter = 'u' then readPartner leading rest else .error .malformed

/-- Reads an escape by number after its `\u`. -/
def readNumbered (text : List Char) : Step Char :=
  match readHexQuad text with
  | .ok (unit, rest) =>
      if isTrailingSurrogate unit then
        .error .malformed
      else if isLeadingSurrogate unit then
        readTrailing unit rest
      else
        .ok (Char.ofNat unit, rest)
  | .error fault => .error fault

/-- The character that a one-letter escape stands for. -/
def ofEscapeLetter? : Char → Option Char
  | '"' => some '"'
  | '\\' => some '\\'
  | '/' => some '/'
  | 'b' => some '\x08'
  | 'f' => some '\x0c'
  | 'n' => some '\n'
  | 'r' => some '\r'
  | 't' => some '\t'
  | _ => none

/-- Reads an escape after its backslash. -/
def readEscape : List Char → Step Char
  | [] => .error .truncated
  | 'u' :: rest => readNumbered rest
  | letter :: rest =>
      match ofEscapeLetter? letter with
      | some character => .ok (character, rest)
      | none => .error .malformed

/-- Passes over an escape after its backslash. -/
def skipEscape : List Char → Result (List Char)
  | [] => .error .truncated
  | 'u' :: rest =>
      match readHexQuad rest with
      | .ok (_, rest) => .ok rest
      | .error fault => .error fault
  | letter :: rest => if (ofEscapeLetter? letter).isSome then .ok rest else .error .malformed

theorem readHexQuad_length {text rest : List Char} {unit : Nat}
    (read : readHexQuad text = .ok (unit, rest)) : rest.length < text.length := by
  unfold readHexQuad at read
  split at read
  · split at read
    · cases read
      simp only [List.length_cons]
      omega
    · cases read
  · split at read <;> cases read

theorem readPartner_length {leading : Nat} {text rest : List Char} {character : Char}
    (read : readPartner leading text = .ok (character, rest)) : rest.length < text.length := by
  unfold readPartner at read
  split at read
  next quad =>
    have shorter := readHexQuad_length quad
    split at read
    · simp only [Except.ok.injEq, Prod.mk.injEq] at read
      rw [← read.2]
      exact shorter
    · cases read
  · cases read

theorem readTrailing_length {leading : Nat} {text rest : List Char} {character : Char}
    (read : readTrailing leading text = .ok (character, rest)) : rest.length < text.length := by
  unfold readTrailing at read
  split at read
  · cases read
  · cases read
  · split at read
    · have shorter := readPartner_length read
      simp only [List.length_cons]
      omega
    · cases read

theorem readNumbered_length {text rest : List Char} {character : Char}
    (read : readNumbered text = .ok (character, rest)) : rest.length < text.length := by
  unfold readNumbered at read
  split at read
  next quad =>
    have shorter := readHexQuad_length quad
    split at read
    · cases read
    · split at read
      · have further := readTrailing_length read
        omega
      · cases read
        exact shorter
  · cases read

theorem readEscape_length {text rest : List Char} {character : Char}
    (read : readEscape text = .ok (character, rest)) : rest.length < text.length := by
  unfold readEscape at read
  split at read
  · cases read
  · have shorter := readNumbered_length read
    simp only [List.length_cons]
    omega
  · split at read
    · cases read
      simp only [List.length_cons]
      omega
    · cases read

theorem skipEscape_length {text rest : List Char} (skipped : skipEscape text = .ok rest) :
    rest.length < text.length := by
  unfold skipEscape at skipped
  split at skipped
  · cases skipped
  · split at skipped
    next quad =>
      have shorter := readHexQuad_length quad
      cases skipped
      simp only [List.length_cons]
      omega
    · cases skipped
  · split at skipped
    · cases skipped
      simp only [List.length_cons]
      omega
    · cases skipped

/-! ## Reading -/

/-- Reads the inside of a string and its closing mark; `before` holds what was read, last first. -/
def readTextFrom (before : List Char) (text : List Char) : Step String :=
  match text with
  | [] => .error .truncated
  | '"' :: rest => .ok (String.ofList before.reverse, rest)
  | '\\' :: rest =>
      match escape : readEscape rest with
      | .ok (character, rest) =>
          have _shorter := readEscape_length escape
          readTextFrom (character :: before) rest
      | .error fault => .error fault
  | character :: rest =>
      if character.toNat < 0x20 then .error .malformed else readTextFrom (character :: before) rest
termination_by text.length

/-- Passes over the inside of a string and its closing mark. -/
def skipText (text : List Char) : Result (List Char) :=
  match text with
  | [] => .error .truncated
  | '"' :: rest => .ok rest
  | '\\' :: rest =>
      match escape : skipEscape rest with
      | .ok rest =>
          have _shorter := skipEscape_length escape
          skipText rest
      | .error fault => .error fault
  | character :: rest => if character.toNat < 0x20 then .error .malformed else skipText rest
termination_by text.length

theorem readTextFrom_length {before text rest : List Char} {value : String}
    (read : readTextFrom before text = .ok (value, rest)) : rest.length < text.length := by
  fun_induction readTextFrom before text with
  | case1 => cases read
  | case2 =>
      cases read
      simp only [List.length_cons]
      omega
  | case3 before tail character escaped _ shorter inductionHypothesis =>
      have further := inductionHypothesis read
      simp only [List.length_cons]
      omega
  | case4 => cases read
  | case5 => cases read
  | case6 before character tail _ _ _ inductionHypothesis =>
      have further := inductionHypothesis read
      simp only [List.length_cons]
      omega

theorem skipText_length {text rest : List Char} (skipped : skipText text = .ok rest) :
    rest.length < text.length := by
  fun_induction skipText text with
  | case1 => cases skipped
  | case2 =>
      cases skipped
      simp only [List.length_cons]
      omega
  | case3 tail escaped _ shorter inductionHypothesis =>
      have further := inductionHypothesis skipped
      simp only [List.length_cons]
      omega
  | case4 => cases skipped
  | case5 => cases skipped
  | case6 character tail _ _ _ inductionHypothesis =>
      have further := inductionHypothesis skipped
      simp only [List.length_cons]
      omega

end Keypad.Json
