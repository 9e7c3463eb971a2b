import Colloquy.Text.Character

/-! Text between quotes, on one line and printable. Single quotes are used unless the text holds a
single quote and no double quote. -/

namespace Colloquy.Text

def hexDigit (n : Nat) : Char :=
  if n < 10 then Char.ofNat (48 + n) else Char.ofNat (87 + n)

def hex : (width : Nat) → Nat → List Char
  | 0, _ => []
  | width + 1, n => hex width (n / 16) ++ [hexDigit (n % 16)]

/-- The escape of a character by its code point, as short as the code point allows. -/
def hexEscape (c : Char) : List Char :=
  let n := c.toNat
  if n < 0x100 then '\\' :: 'x' :: hex 2 n
  else if n < 0x10000 then '\\' :: 'u' :: hex 4 n
  else '\\' :: 'U' :: hex 8 n

namespace Quoted

def mark (text : List Char) : Char :=
  if text.contains '\'' && !text.contains '"' then '"' else '\''

def escape (quote c : Char) : List Char :=
  if c == quote || c == '\\' then ['\\', c]
  else if c == '\n' then ['\\', 'n']
  else if c == '\r' then ['\\', 'r']
  else if c == '\t' then ['\\', 't']
  else if isPrintable c then [c]
  else hexEscape c

def encode (text : List Char) : List Char :=
  let quote := mark text
  quote :: text.flatMap (escape quote) ++ [quote]

/-- One byte between quotes. Beyond ASCII, and for control characters, it is written as a number. -/
def escapeByte (quote : Char) (b : UInt8) : List Char :=
  let c := Char.ofNat b.toNat
  if b < 128 then escape quote c else hexEscape c

def charsOf (bytes : List UInt8) : List Char := bytes.map fun b => Char.ofNat b.toNat

end Quoted

/-- Bytes between quotes, with a letter before them that tells them from a text. -/
def quotedBytes (bytes : List UInt8) : String :=
  let quote := Quoted.mark (Quoted.charsOf bytes)
  String.ofList ('b' :: quote :: bytes.flatMap (Quoted.escapeByte quote) ++ [quote])

def quoted (text : String) : String := String.ofList (Quoted.encode text.toList)

end Colloquy.Text
