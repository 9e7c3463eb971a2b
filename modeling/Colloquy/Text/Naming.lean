import Colloquy.Text.Character
import Colloquy.Text.Table.Naming

/-! Names: a letter or an underscore, and then letters, decimal digits, underscores and marks. -/

namespace Colloquy.Text

def beginsName (c : Char) : Bool :=
  let n := c.toNat
  if n < 128 then isLatin c || c == '_'
  else (isWord c && !isDigit c && !Table.neverFirst.has n) || Table.alsoFirst.has n

def continuesName (c : Char) : Bool :=
  beginsName c || isDigit c || (128 ≤ c.toNat && Table.continuing.has c.toNat)

def isName : List Char → Bool
  | [] => false
  | c :: rest => beginsName c && rest.all continuesName

end Colloquy.Text
