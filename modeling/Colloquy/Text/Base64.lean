/-! Bytes as text in base sixty-four. Four characters stand for three bytes. -/

namespace Colloquy.Text.Base64

def alphabet : List Char :=
  "ABCDEFGHIJKLMNOPQRSTUVWXYZabcdefghijklmnopqrstuvwxyz0123456789+/".toList

def value? (c : Char) : Option Nat :=
  let i := alphabet.idxOf c
  if i < alphabet.length then some i else none

def char (n : Nat) : Char := alphabet[n % 64]?.getD 'A'

/-- The characters of bytes, with a sign of equality for each byte that the last three lack. -/
def encode : List UInt8 → List Char
  | [] => []
  | [a] => [char (a.toNat / 4), char (a.toNat % 4 * 16), '=', '=']
  | [a, b] =>
    [char (a.toNat / 4), char (a.toNat % 4 * 16 + b.toNat / 16), char (b.toNat % 16 * 4), '=']
  | a :: b :: c :: rest =>
    char (a.toNat / 4) :: char (a.toNat % 4 * 16 + b.toNat / 16) ::
      char (b.toNat % 16 * 4 + c.toNat / 64) :: char (c.toNat % 64) :: encode rest

/-- The bytes of characters, given how many characters of the four at hand have been read, the bits
of them that are left over, and how many signs of equality have come since. Characters without a
value are passed over. Enough signs of equality end the text; without them, no bits may be left. -/
def decodeFrom : (read left pads : Nat) → List Char → Option (List UInt8)
  | read, _, _, [] => if read = 0 then some [] else none
  | read, left, pads, c :: rest =>
    if c = '=' then
      if 2 ≤ read ∧ 4 ≤ read + pads + 1 then some []
      else decodeFrom read left (if 2 ≤ read then pads + 1 else pads) rest
    else
      match value? c with
      | none => decodeFrom read left pads rest
      | some v =>
        match read with
        | 0 => decodeFrom 1 v 0 rest
        | 1 => (decodeFrom 2 (v % 16) 0 rest).map ((left * 4 + v / 16).toUInt8 :: ·)
        | 2 => (decodeFrom 3 (v % 4) 0 rest).map ((left * 16 + v / 4).toUInt8 :: ·)
        | _ => (decodeFrom 0 0 0 rest).map ((left * 64 + v).toUInt8 :: ·)

def decode (text : List Char) : Option (List UInt8) := decodeFrom 0 0 0 text

/-- Characters cut into lines of a width. Every line has its end. -/
def linesOf (width : Nat) : (steps : Nat) → List Char → List Char
  | 0, _ => []
  | steps + 1, text =>
    match text with
    | [] => []
    | text => text.take width ++ '\n' :: linesOf width steps (text.drop width)

def encodeLines (bytes : List UInt8) : List Char :=
  let text := encode bytes
  linesOf 76 text.length text

end Colloquy.Text.Base64
