import Colloquy.Text.Character

/-! Whole numbers as text: decimal digits of any script, with single underscores between digits. -/

namespace Colloquy.Text

/-- The number that decimal digits stand for, most significant first. -/
def numberOf (digits : List Nat) : Nat := digits.foldl (fun n d => 10 * n + d) 0

/-- The values of digits that may have single underscores between them. -/
def underscoredDigits? : List Char → Option (List Nat)
  | [] => none
  | [c] => (digitValue? c).map ([·])
  | c :: '_' :: rest => do
    let d ← digitValue? c
    let ds ← underscoredDigits? rest
    return d :: ds
  | c :: rest => do
    let d ← digitValue? c
    let ds ← underscoredDigits? rest
    return d :: ds

def digitLimit : Nat := 4300

def trim (drop : Char → Bool) (text : List Char) : List Char :=
  ((text.dropWhile drop).reverse.dropWhile drop).reverse

/-- The blanks that may surround a number: all but the information separators. -/
def surroundsNumber (c : Char) : Bool := isBlank c && !(28 ≤ c.toNat && c.toNat ≤ 31)

/-- The whole number that digits stand for, unless there are too many of them. -/
def natural? (text : List Char) : Option Nat := do
  let digits ← underscoredDigits? text
  if digits.length ≤ digitLimit then some (numberOf digits) else none

/-- The whole number that a text stands for: blanks around it and one sign are allowed. -/
def integer? (text : List Char) : Option Int :=
  match trim surroundsNumber text with
  | '-' :: rest => (natural? rest).map fun n => -(n : Int)
  | '+' :: rest => (natural? rest).map fun n => (n : Int)
  | rest => (natural? rest).map fun n => (n : Int)

end Colloquy.Text
