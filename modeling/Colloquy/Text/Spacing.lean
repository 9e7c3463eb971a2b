import Colloquy.Text.Character
import Colloquy.Text.Run

/-! Spacing inside replies: no wide gaps, and no gap before a period. -/

namespace Colloquy.Text

/-- Every run of two or more blanks becomes one space; a single blank stays what it is. -/
def collapse (text : List Char) : List Char :=
  (runs isBlank text).flatMap fun r => if r.kind && 2 ≤ r.chars.length then [' '] else r.chars

def closePeriods : List (Run Bool) → List Char
  | [] => []
  | [r] => r.chars
  | r :: s :: rest =>
    if r.kind && s.chars.head? == some '.' then closePeriods (s :: rest)
    else r.chars ++ closePeriods (s :: rest)

def tidy (text : List Char) : List Char := closePeriods (runs isBlank (collapse text))

def normalizeSpacing (text : String) : String := String.ofList (tidy text.toList)

end Colloquy.Text
