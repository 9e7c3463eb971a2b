import Colloquy.Text.Table.Word
import Colloquy.Text.Table.Digit
import Colloquy.Text.Table.Unprintable
import Colloquy.Text.Table.Lower

/-! Classes of characters: blanks, digits, word characters and printable characters, and the small
letter of a capital. ASCII is decided without the tables. -/

namespace Colloquy.Text

/-- White space in the wide sense: also the four information separators, next line, and the spaces
and line separators beyond ASCII. -/
def isBlank (c : Char) : Bool :=
  let n := c.toNat
  n == 32 || (9 ≤ n && n ≤ 13) || (28 ≤ n && n ≤ 31) || n == 0x85 || n == 0xa0 || n == 0x1680 ||
    (0x2000 ≤ n && n ≤ 0x200a) || n == 0x2028 || n == 0x2029 || n == 0x202f || n == 0x205f ||
    n == 0x3000

def digitValue? (c : Char) : Option Nat :=
  let n := c.toNat
  if n < 128 then
    if 48 ≤ n && n ≤ 57 then some (n - 48) else none
  else
    (Table.zeros.find? fun z => z ≤ n && n < z + 10).map (n - ·)

def isDigit (c : Char) : Bool := (digitValue? c).isSome

/-- A letter, a number or the underscore. -/
def isWord (c : Char) : Bool :=
  let n := c.toNat
  if n < 128 then
    (48 ≤ n && n ≤ 57) || (65 ≤ n && n ≤ 90) || n == 95 || (97 ≤ n && n ≤ 122)
  else Table.word.has n

def isPrintable (c : Char) : Bool :=
  let n := c.toNat
  if n < 128 then 32 ≤ n && n < 127 else !Table.unprintable.has n

def isSmallLatin (c : Char) : Bool := 97 ≤ c.toNat && c.toNat ≤ 122

def isCapitalLatin (c : Char) : Bool := 65 ≤ c.toNat && c.toNat ≤ 90

def isLatin (c : Char) : Bool := isSmallLatin c || isCapitalLatin c

/-- The small letter of a capital, one character for one character. Capital I with a dot gives the
plain small i. Every other character is its own. -/
def lowerOne (c : Char) : Char :=
  let n := c.toNat
  if n < 128 then
    if isCapitalLatin c then Char.ofNat (n + 32) else c
  else if n == 0x130 then 'i'
  else
    match Table.lower.find? fun s => s.first ≤ n && n ≤ s.last && (n - s.first) % s.step == 0 with
    | some s => Char.ofNat (n + s.up - s.down)
    | none => c

/-- The small letter of an ASCII capital; every other character is its own. -/
def smallOne (c : Char) : Char :=
  if isCapitalLatin c then Char.ofNat (c.toNat + 32) else c

/-- The capital of a small ASCII letter; every other character is its own. -/
def capitalOne (c : Char) : Char :=
  if isSmallLatin c then Char.ofNat (c.toNat - 32) else c

end Colloquy.Text
