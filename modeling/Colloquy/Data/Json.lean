import Colloquy.Data.Shown

/-! Values as JSON, in ASCII and on one line. -/

namespace Colloquy

namespace Text

def unitEscape (c : Char) : List Char :=
  let n := c.toNat
  if n < 0x10000 then '\\' :: 'u' :: hex 4 n
  else
    let high := 0xd800 + (n - 0x10000) / 0x400
    let low := 0xdc00 + (n - 0x10000) % 0x400
    '\\' :: 'u' :: hex 4 high ++ '\\' :: 'u' :: hex 4 low

def jsonEscape (c : Char) : List Char :=
  match c with
  | '"' => ['\\', '"']
  | '\\' => ['\\', '\\']
  | '\n' => ['\\', 'n']
  | '\r' => ['\\', 'r']
  | '\t' => ['\\', 't']
  | '\x08' => ['\\', 'b']
  | '\x0c' => ['\\', 'f']
  | _ => if 32 ≤ c.toNat ∧ c.toNat ≤ 126 then [c] else unitEscape c

def json (text : String) : String :=
  String.ofList ('"' :: text.toList.flatMap jsonEscape ++ ['"'])

end Text

namespace Data

/-- A number with a point as JSON, with names for the values that are not numbers. -/
def jsonFloat : Double → String
  | .nan => "NaN"
  | .infinite negative => if negative then "-Infinity" else "Infinity"
  | x => x.text

def jsonKey : Data → String
  | null => "null"
  | bool b => if b then "true" else "false"
  | float x => jsonFloat x
  | key => key.plain

def jsonObject (members : List (String × String)) : String :=
  "\x7b" ++ ", ".intercalate (members.map fun m => Text.json m.1 ++ ": " ++ m.2) ++ "\x7d"

mutual

/-- A value as JSON. Days, bytes and sets are written as their texts. -/
def json : Data → String
  | null => "null"
  | bool b => if b then "true" else "false"
  | int i => toString i
  | float x => jsonFloat x
  | text s => Text.json s
  | pair first second => "[" ++ json first ++ ", " ++ json second ++ "]"
  | list items => "[" ++ ", ".intercalate (jsonItems items) ++ "]"
  | map entries => jsonObject (jsonEntries entries)
  | shared _ value => json value
  | value => Text.json value.plain

def jsonItems : List Data → List String
  | [] => []
  | x :: rest => json x :: jsonItems rest

def jsonEntries : List (Data × Data) → List (String × String)
  | [] => []
  | (k, v) :: rest => (jsonKey k, json v) :: jsonEntries rest

end

end Data
end Colloquy
