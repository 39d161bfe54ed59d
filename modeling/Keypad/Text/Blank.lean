/-!
Contract: the blank characters between keys typed at a terminal.

Owns:
- the characters with the Unicode property White_Space.

Does not own: blanks between the tokens of a document, which are fewer.
-/

namespace Keypad.Blank

/-- The ranges of White_Space, ends included. -/
def ranges : List (Nat × Nat) := [
  (0x9, 0xD), (0x20, 0x20), (0x85, 0x85), (0xA0, 0xA0), (0x1680, 0x1680), (0x2000, 0x200A),
  (0x2028, 0x2029), (0x202F, 0x202F), (0x205F, 0x205F), (0x3000, 0x3000)]

def contains (character : Char) : Bool :=
  ranges.any fun range => range.1 ≤ character.toNat && character.toNat ≤ range.2

end Keypad.Blank
