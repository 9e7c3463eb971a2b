import Colloquy.Text.Character
import Colloquy.Text.Table.Cased

/-! Lowercase of whole texts. Two letters need more than a table of single characters: capital I
with a dot becomes two characters, and capital sigma becomes the final form at the end of a word. -/

namespace Colloquy.Text

/-- A letter that has case and is not passed over by `isCaseIgnorable`. -/
def isCased (c : Char) : Bool :=
  if c.toNat < 128 then isCapitalLatin c || isSmallLatin c else Table.cased.has c.toNat

/-- A character that is passed over when one looks for a neighbour with case, such as an apostrophe
or an accent. -/
def isCaseIgnorable (c : Char) : Bool :=
  if c.toNat < 128 then c == '\'' || c == '.' || c == ':' || c == '^' || c.toNat == 96
  else Table.caseIgnorable.has c.toNat

/-- Whether the nearest character that is not passed over has case. -/
def meetsCased (neighbours : List Char) : Bool :=
  match neighbours.dropWhile isCaseIgnorable with
  | [] => false
  | c :: _ => isCased c

def endsWord (before after : List Char) : Bool := meetsCased before && !meetsCased after

/-- Lowercase of the rest of a text, given what stands before it, last character first. -/
def lowerAfter (before : List Char) : List Char → List Char
  | [] => []
  | c :: rest =>
    if c == 'Σ' then
      (if endsWord before rest then 'ς' else 'σ') :: lowerAfter (c :: before) rest
    else if c == 'İ' then
      'i' :: '\u0307' :: lowerAfter (c :: before) rest
    else lowerOne c :: lowerAfter (c :: before) rest

def lower (text : List Char) : List Char := lowerAfter [] text

end Colloquy.Text
