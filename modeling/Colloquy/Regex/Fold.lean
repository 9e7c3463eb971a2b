import Colloquy.Text.Cursor

/-! Letters that count as the same when case is ignored. -/

namespace Colloquy.Regex

open Text

/-- Small letters that count as the same although they are different small letters. -/
def mateClasses : List (List Nat) := [
  [0x69, 0x131], [0x73, 0x17f], [0xb5, 0x3bc], [0x345, 0x3b9, 0x1fbe], [0x390, 0x1fd3],
  [0x3b0, 0x1fe3], [0x3b2, 0x3d0], [0x3b5, 0x3f5], [0x3b8, 0x3d1], [0x3ba, 0x3f0],
  [0x3c0, 0x3d6], [0x3c1, 0x3f1], [0x3c2, 0x3c3], [0x3c6, 0x3d5], [0x432, 0x1c80],
  [0x434, 0x1c81], [0x43e, 0x1c82], [0x441, 0x1c83], [0x442, 0x1c84, 0x1c85], [0x44a, 0x1c86],
  [0x463, 0x1c87], [0x1c88, 0xa64b], [0x1e61, 0x1e9b], [0xfb05, 0xfb06]]

/-- The small letters that count as the same as a small letter, itself among them. -/
def mates (letter : Nat) : List Nat := (mateClasses.find? (·.contains letter)).getD [letter]

def smallCode (c : Char) : Nat := (lowerOne c).toNat

/-- The code point of the small letter of a code point. Code points of no character are their own. -/
def lowerCode (code : Nat) : Nat := if code.isValidChar then smallCode (Char.ofNat code) else code

/-- Whether a character is the same letter as a code point, in either case. -/
def sameLetter (code : Nat) (c : Char) : Bool := (mates (lowerCode code)).contains (smallCode c)

def capitalsOf (letter : Nat) : List Nat :=
  (if 97 ≤ letter ∧ letter ≤ 122 then [letter - 32] else []) ++
    (if letter = 0x69 then [0x130] else []) ++
    Table.lower.filterMap fun s =>
      let code := letter + s.down - s.up
      if s.first ≤ code ∧ code ≤ s.last ∧ (code - s.first) % s.step = 0 then some code else none

/-- Whether a character is the same letter as some code point of a range, in either case. -/
def inFoldedRange (first last : Nat) (c : Char) : Bool :=
  (mates (smallCode c)).any fun letter =>
    (first ≤ letter && letter ≤ last && lowerCode letter == letter) ||
      (capitalsOf letter).any fun code => first ≤ code && code ≤ last

end Colloquy.Regex
