import Keypad.Json.Reader

/-!
Contract: passing over a value that nobody reads.

Such a value has to be well formed, but its numbers may be of any size and its strings may hold lone
surrogates. It may nest to any depth: the brackets still open are kept in a list, so the depth of
the nesting is not the depth of the recursion.

Owns:
- passing over single values and over nested ones.

Does not own: values that are kept.
-/

namespace Keypad.Json

inductive Bracket where
  | array
  | object
  deriving DecidableEq

namespace Bracket

def ofOpening? : Char → Option Bracket
  | '[' => some .array
  | '\x7b' => some .object
  | _ => none

def closing : Bracket → Char
  | .array => ']'
  | .object => '\x7d'

end Bracket

/-- Passes over the key and the colon before a member's value; elements have none. -/
def skipKey (bracket : Bracket) (text : List Char) : Result (List Char) :=
  match bracket with
  | .array => .ok text
  | .object =>
      match skipBlanks text with
      | [] => .error .truncated
      | '"' :: rest =>
          match skipText rest with
          | .ok rest => readColon rest
          | .error fault => .error fault
      | _ => .error .malformed

/-- Passes over a value without brackets. -/
def skipScalar (text : List Char) : Result (List Char) :=
  match text with
  | [] => .error .truncated
  | 'n' :: rest => readLetters ['u', 'l', 'l'] rest
  | 't' :: rest => readLetters ['r', 'u', 'e'] rest
  | 'f' :: rest => readLetters ['a', 'l', 's', 'e'] rest
  | '"' :: rest => skipText rest
  | first :: _ => if first = '-' ∨ first.isDigit then skipNumber text else .error .malformed

/-- After a value: passes over the brackets that close, and over the comma before a further value.
Gives the brackets still open around that value, or none when the outermost value is complete. -/
def skipClosing : List Bracket → List Char → Step (Option (List Bracket))
  | [], text => .ok (none, text)
  | bracket :: outer, text =>
      match skipBlanks text with
      | [] => .error .truncated
      | character :: rest =>
          if character = ',' then
            match skipKey bracket rest with
            | .ok rest => .ok (some (bracket :: outer), rest)
            | .error fault => .error fault
          else if character = bracket.closing then
            skipClosing outer rest
          else
            .error .malformed

theorem skipKey_length {bracket : Bracket} {text rest : List Char}
    (skipped : skipKey bracket text = .ok rest) : rest.length ≤ text.length := by
  unfold skipKey at skipped
  have bound := skipBlanks_length text
  split at skipped
  · cases skipped
    exact Nat.le_refl _
  · split at skipped
    · cases skipped
    next tail start =>
      rw [start, List.length_cons] at bound
      split at skipped
      next afterText textSkipped =>
        have key := skipText_length textSkipped
        have colon := readColon_length skipped
        omega
      · cases skipped
    · cases skipped

theorem skipScalar_length {text rest : List Char} (skipped : skipScalar text = .ok rest) :
    rest.length < text.length := by
  unfold skipScalar at skipped
  split at skipped
  · cases skipped
  · have letters := readLetters_length skipped
    simp only [List.length_cons]
    omega
  · have letters := readLetters_length skipped
    simp only [List.length_cons]
    omega
  · have letters := readLetters_length skipped
    simp only [List.length_cons]
    omega
  · have string := skipText_length skipped
    simp only [List.length_cons]
    omega
  · split at skipped
    · exact skipNumber_length skipped
    · cases skipped

theorem skipClosing_length {brackets : List Bracket} {text rest : List Char}
    {remaining : Option (List Bracket)}
    (skipped : skipClosing brackets text = .ok (remaining, rest)) : rest.length ≤ text.length := by
  fun_induction skipClosing brackets text with
  | case1 text =>
      cases skipped
      exact Nat.le_refl _
  | case2 => cases skipped
  | case3 bracket outer text tail afterKey keySkipped start =>
      have bound := skipBlanks_length text
      have key := skipKey_length keySkipped
      rw [start, List.length_cons] at bound
      cases skipped
      omega
  | case4 => cases skipped
  | case5 bracket outer text tail start notComma inductionHypothesis =>
      have bound := skipBlanks_length text
      have further := inductionHypothesis skipped
      rw [start, List.length_cons] at bound
      omega
  | case6 => cases skipped

/-- Passes over a scalar, an empty pair of brackets or an opening bracket, and over what follows it
up to the next value. Gives the brackets open around that value, or none at the end. -/
def skipStep (brackets : List Bracket) (text : List Char) : Step (Option (List Bracket)) :=
  match skipBlanks text with
  | [] => .error .truncated
  | character :: rest =>
      match Bracket.ofOpening? character with
      | some bracket =>
          match skipBlanks rest with
          | [] => .error .truncated
          | next :: afterNext =>
              if next = bracket.closing then
                skipClosing brackets afterNext
              else
                match skipKey bracket rest with
                | .ok value => .ok (some (bracket :: brackets), value)
                | .error fault => .error fault
      | none =>
          match skipScalar (character :: rest) with
          | .ok afterScalar => skipClosing brackets afterScalar
          | .error fault => .error fault

theorem skipStep_length {brackets : List Bracket} {text rest : List Char}
    {remaining : Option (List Bracket)}
    (skipped : skipStep brackets text = .ok (remaining, rest)) : rest.length < text.length := by
  unfold skipStep at skipped
  have bound := skipBlanks_length text
  split at skipped
  · cases skipped
  next character tail start =>
    rw [start, List.length_cons] at bound
    split at skipped
    · have innerBound := skipBlanks_length tail
      split at skipped
      · cases skipped
      next next afterNext inner =>
        rw [inner, List.length_cons] at innerBound
        split at skipped
        · have closing := skipClosing_length skipped
          omega
        · split at skipped
          next value keySkipped =>
            have key := skipKey_length keySkipped
            cases skipped
            omega
          · cases skipped
    · split at skipped
      next afterScalar scalarSkipped =>
        have scalar := skipScalar_length scalarSkipped
        have closing := skipClosing_length skipped
        rw [List.length_cons] at scalar
        omega
      · cases skipped

/-- Passes over a value inside the given brackets and all that follows it up to the end of the
outermost one. -/
def skipFrom (brackets : List Bracket) (text : List Char) : Result (List Char) :=
  match step : skipStep brackets text with
  | .error fault => .error fault
  | .ok (none, rest) => .ok rest
  | .ok (some remaining, rest) =>
      have _shorter := skipStep_length step
      skipFrom remaining rest
termination_by text.length

theorem skipFrom_length {brackets : List Bracket} {text rest : List Char}
    (skipped : skipFrom brackets text = .ok rest) : rest.length < text.length := by
  fun_induction skipFrom brackets text with
  | case1 => cases skipped
  | case2 brackets text afterStep step =>
      cases skipped
      exact skipStep_length step
  | case3 brackets text remaining afterStep step shorter inductionHypothesis =>
      have further := inductionHypothesis skipped
      omega

/-- Reads any value and keeps nothing of it. -/
def skipped : Reader Unit where
  run text :=
    match skipFrom [] text with
    | .ok rest => .ok ((), rest)
    | .error fault => .error fault
  shorter := by
    intro text rest value read
    split at read
    next tail tailSkipped =>
      cases read
      exact skipFrom_length tailSkipped
    · cases read

end Keypad.Json
