import Colloquy.Text.Numeral
import Colloquy.Yaml.Source

/-! What plain scalars mean. The kind of a scalar follows from its form alone. -/

namespace Colloquy.Yaml

open Text (isPlainDigit isHexDigit isOctalDigit)

/-- The kinds of values, by the tags that stand for them. -/
inductive Tag where
  | null
  | bool
  | int
  | float
  | binary
  | timestamp
  | text
  | sequence
  | pairs
  | mapping
  | set
  | merge
  | default
  | other
deriving DecidableEq

namespace Scalar

def truth? (text : String) : Option Bool :=
  if ["yes", "true", "on"].contains text then some true
  else if ["no", "false", "off"].contains text then some false
  else none

/-- Whether a word is written in small letters, in capitals, or with a capital first. -/
def isWordOf (small : String) (text : List Char) : Bool :=
  let cs := small.toList
  text == cs || text == cs.map Text.capitalOne ||
    match cs with
    | [] => false
    | c :: rest => text == Text.capitalOne c :: rest

def isBool (text : List Char) : Bool :=
  ["yes", "no", "true", "false", "on", "off"].any (isWordOf · text)

def isNull (text : List Char) : Bool := text == [] || text == ['~'] || isWordOf "null" text

def unsigned : List Char → List Char
  | '-' :: rest => rest
  | '+' :: rest => rest
  | text => text

def isSpacedDigit (c : Char) : Bool := isPlainDigit c || c == '_'

/-- Groups of one or two digits after colons, and what follows them. -/
def sixties : (steps : Nat) → List Char → Nat × List Char
  | 0, text => (0, text)
  | steps + 1, text =>
    match text with
    | ':' :: a :: b :: rest =>
      if isPlainDigit a && isPlainDigit b && a.toNat ≤ 53 then
        let (n, rest) := sixties steps rest
        (n + 1, rest)
      else if isPlainDigit a then
        let (n, rest) := sixties steps (b :: rest)
        (n + 1, rest)
      else (0, text)
    | [':', a] => if isPlainDigit a then (1, []) else (0, text)
    | _ => (0, text)

/-- Whether a text has the form of a whole number: decimal, octal after a zero, of base two or
sixteen after a letter, or of base sixty with colons. -/
def isInt (text : List Char) : Bool :=
  match unsigned text with
  | '0' :: 'b' :: rest => rest ≠ [] && rest.all fun c => c == '0' || c == '1' || c == '_'
  | '0' :: 'x' :: rest => rest ≠ [] && rest.all fun c => isHexDigit c || c == '_'
  | '0' :: rest => rest.all fun c => isOctalDigit c || c == '_'
  | c :: rest =>
    isPlainDigit c &&
      match rest.dropWhile isSpacedDigit with
      | [] => true
      | more => sixties more.length more |>.2 |>.isEmpty
  | [] => false

/-- Whether a text has the form of an exponent with a sign, or is empty. -/
def isExponent : List Char → Bool
  | [] => true
  | e :: sign :: digits =>
    (e == 'e' || e == 'E') && (sign == '-' || sign == '+') && digits ≠ [] && digits.all isPlainDigit
  | _ => false

def isFloat (text : List Char) : Bool :=
  match text with
  | '.' :: rest =>
    isWordOf "inf" rest || rest == "nan".toList || rest == "NaN".toList || rest == "NAN".toList ||
      match rest with
      | c :: more => isPlainDigit c && isExponent (more.dropWhile isSpacedDigit)
      | [] => false
  | _ =>
    match unsigned text with
    | '.' :: rest => isWordOf "inf" rest
    | c :: rest =>
      isPlainDigit c &&
        match rest.dropWhile isSpacedDigit with
        | '.' :: part => isExponent (part.dropWhile isSpacedDigit)
        | more =>
          match sixties more.length more with
          | (_ + 1, '.' :: part) => part.all isSpacedDigit
          | _ => false
    | [] => false

/-- The leading digits of a text, at least `least` and at most `most`, and what follows them. -/
def digits? (least most : Nat) (text : List Char) : Option (Nat × List Char) :=
  let ds := (text.take most).takeWhile isPlainDigit
  if least ≤ ds.length then some (Text.inBase 10 ds, text.drop ds.length) else none

def after? (c : Char) : List Char → Option (List Char)
  | d :: rest => if d = c then some rest else none
  | [] => none

/-- The offset at the end of a time of day, in minutes, if it has the form of one. The sign is for
hours and minutes alike. -/
def offset? (text : List Char) : Option (Option Int) :=
  match text.dropWhile fun c => c == ' ' || c == '\t' with
  | [] => if text = [] then some none else none
  | ['Z'] => some (some 0)
  | sign :: rest =>
    if sign == '-' || sign == '+' then do
      let (hours, rest) ← digits? 1 2 rest
      let minutes ← match rest with
        | [] => some 0
        | ':' :: rest =>
          match digits? 2 2 rest with
          | some (m, []) => some m
          | _ => none
        | _ => none
      let total : Int := 60 * hours + minutes
      return some (if sign == '-' then -total else total)
    else none

def microseconds (digits : List Char) : Nat :=
  let ds := digits.take 6
  Text.inBase 10 (ds ++ List.replicate (6 - ds.length) '0')

def clock? (text : List Char) : Option Clock := do
  let rest ← match text with
    | 'T' :: rest => some rest
    | 't' :: rest => some rest
    | c :: rest =>
      if c == ' ' || c == '\t' then some (rest.dropWhile fun c => c == ' ' || c == '\t') else none
    | [] => none
  let (hour, rest) ← digits? 1 2 rest
  let rest ← after? ':' rest
  let (minute, rest) ← digits? 2 2 rest
  let rest ← after? ':' rest
  let (second, rest) ← digits? 2 2 rest
  let (fraction, rest) := match rest with
    | '.' :: rest => (rest.takeWhile isPlainDigit, rest.dropWhile isPlainDigit)
    | _ => ([], rest)
  let offset ← offset? rest
  return ⟨hour, minute, second, microseconds fraction, offset⟩

/-- The day, or the time on a day, that a text has the form of. Whether the calendar has it is not
looked at. -/
def stamp? (text : List Char) : Option Stamp := do
  let (year, rest) ← digits? 4 4 text
  let rest ← after? '-' rest
  let (month, rest) ← digits? 1 2 rest
  let rest ← after? '-' rest
  let (day, rest) ← digits? 1 2 rest
  if rest = [] then return ⟨year, month, day, none⟩
  else return ⟨year, month, day, some (← clock? rest)⟩

/-- Whether a text is taken for a day or a time by its form. A day by itself needs two digits for
month and day, which make ten characters with its year. -/
def isStamp (text : List Char) : Bool :=
  (stamp? text).any fun s => s.clock.isSome || text.length == 10

/-- A text without the line end at its end, if it has one. -/
def withoutLineEnd (text : List Char) : List Char :=
  if text.getLast? = some '\n' then text.dropLast else text

/-- The kind of a scalar, by its form alone. A line end at the end of the text does not count, unless
the text is nothing else. -/
def tagOf (text : List Char) : Tag :=
  let form := withoutLineEnd text
  if text = ['\n'] then .text
  else if isBool form then .bool
  else if isFloat form then .float
  else if isInt form then .int
  else if form = ['<', '<'] then .merge
  else if isNull form then .null
  else if isStamp form then .timestamp
  else if form = ['='] then .default
  else if [['!'], ['&'], ['*']].contains form then .other
  else .text

end Scalar
end Colloquy.Yaml
