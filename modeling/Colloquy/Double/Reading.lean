import Colloquy.Double
import Colloquy.Text.Integer

/-! Numbers with a point from text: decimal digits of any script, with a point and an exponent, or a
word for what is not finite. -/

namespace Colloquy.Double

open Text

/-- A text of small Latin letters, however they are written. -/
def isWord (word : String) (text : List Char) : Bool := text.map smallOne == word.toList

/-- The values of the decimal digits at the start of a text, and what follows them. -/
def leadingDigits (text : List Char) : List Nat × List Char :=
  ((text.takeWhile isDigit).filterMap digitValue?, text.dropWhile isDigit)

/-- The number of an exponent, which is zero where nothing is written. -/
def exponent? : List Char → Option Int
  | [] => some 0
  | e :: rest =>
    if e = 'e' ∨ e = 'E' then
      let (negative, rest) := match rest with
        | '-' :: rest => (true, rest)
        | '+' :: rest => (false, rest)
        | rest => (false, rest)
      match leadingDigits rest with
      | ([], _) => none
      | (digits, []) => some (if negative then -(numberOf digits : Int) else numberOf digits)
      | _ => none
    else none

/-- The number `digits · 10 ^ power`. Powers far outside the range are not computed. -/
def ofDigits (digits : List Nat) (power : Int) : Double :=
  if power < -(digits.length : Int) - 400 then .zero
  else if 400 < power then if numberOf digits = 0 then .zero else .infinite false
  else .ofDecimal false (numberOf digits) power

def unsignedOfText? (text : List Char) : Option Double := do
  let (whole, rest) := leadingDigits text
  let (part, rest) := match rest with
    | '.' :: rest => leadingDigits rest
    | rest => ([], rest)
  let exponent ← exponent? rest
  if (whole ++ part).isEmpty then none else some (ofDigits (whole ++ part) (exponent - part.length))

/-- The number that a text stands for: blanks around it and one sign are allowed. -/
def ofText? (text : List Char) : Option Double :=
  let text := trim surroundsNumber text
  let (negative, body) := match text with
    | '-' :: rest => (true, rest)
    | '+' :: rest => (false, rest)
    | rest => (false, rest)
  let x? : Option Double :=
    if isWord "inf" body || isWord "infinity" body then some (.infinite false)
    else if isWord "nan" body then some .nan
    else unsignedOfText? body
  x?.map fun x => if negative then x.neg else x

end Colloquy.Double
