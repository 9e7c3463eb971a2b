import Colloquy.Double.Reading
import Colloquy.Text.Case
import Colloquy.Text.Numeral
import Colloquy.Yaml.Scalar

/-! Numbers as data files write them: with underscores anywhere, in several bases, and in parts of
sixty with colons between them. -/

namespace Colloquy.Yaml.Scalar

open Text (digitValue? hexValue? integer? surroundsNumber trim)

def badValue {α : Type} : Except Error α := .error (.breakdown .badValue)

def orBad {α : Type} : Option α → Except Error α
  | some a => .ok a
  | none => badValue

def digitsIn? (base : Nat) (digits : List Char) : Option Nat := do
  if digits.isEmpty then none
  let values ← digits.mapM fun c => ((digitValue? c).or (hexValue? c)).filter (· < base)
  return values.foldl (fun n d => base * n + d) 0

/-- A text without a zero and a letter at its start, if it has both. -/
def withoutLetter (letter : Char) (text : List Char) : List Char :=
  match text with
  | '0' :: c :: rest => if Text.smallOne c = letter then rest else text
  | text => text

/-- The whole number that a text stands for in a base. A zero and the letter of the base may come
first, blanks around it and one sign are allowed. -/
def integerIn? (base : Nat) (letter : Char) (text : List Char) : Option Int :=
  let number (text : List Char) : Option Int := (digitsIn? base (withoutLetter letter text)).map Int.ofNat
  match trim surroundsNumber text with
  | '-' :: rest => (number rest).map fun n => -n
  | '+' :: rest => number rest
  | rest => number rest

def splitColons : List Char → List (List Char)
  | [] => [[]]
  | c :: rest =>
    match splitColons rest with
    | [] => [[c]]
    | part :: more => if c = ':' then [] :: part :: more else (c :: part) :: more

def isNegative (text : List Char) : Bool := text.head? == some '-'

def wholeOf (text : List Char) : Except Error Int :=
  match text with
  | ['0'] => .ok 0
  | '0' :: 'b' :: rest => orBad (integerIn? 2 'b' rest)
  | '0' :: 'x' :: rest => orBad (integerIn? 16 'x' rest)
  | '0' :: _ => orBad (integerIn? 8 'o' text)
  | [] => .error (.breakdown .outOfRange)
  | _ => do
    let parts ← (splitColons text).mapM fun part => orBad (integer? part)
    return parts.foldl (fun n d => 60 * n + d) 0

def intOf (text : List Char) : Except Error Int := do
  let text := text.filter (· != '_')
  let n ← wholeOf (unsigned text)
  return if isNegative text then -n else n

/-- The sum of parts, the last one first, of which each counts sixty times as much as the one before.
`unit` is what the first one counts. -/
def sumSixties : (unit : Nat) → (sum : Double) → List Double → Except Error Double
  | _, sum, [] => .ok sum
  | unit, sum, x :: rest =>
    match Double.ofInt unit with
    | .infinite _ => .error (.breakdown .tooLarge)
    | scale => sumSixties (60 * unit) (sum.add (x.mul scale)) rest

def floatOf (text : List Char) : Except Error Double := do
  let text := Text.lower (text.filter (· != '_'))
  if text.isEmpty then throw (.breakdown .outOfRange)
  let body := unsigned text
  let x ←
    if body = ".inf".toList then pure (.infinite false)
    else if body = ".nan".toList then pure .nan
    else if body.contains ':' then do
      let parts ← (splitColons body).mapM fun part => orBad (Double.ofText? part)
      sumSixties 1 .zero parts.reverse
    else orBad (Double.ofText? body)
  return if isNegative text then x.neg else x

end Colloquy.Yaml.Scalar
