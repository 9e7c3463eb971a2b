import Colloquy.Data
import Colloquy.Double.Shortest
import Colloquy.Text.Integer
import Colloquy.Text.Quoted

/-! The text of values: on one line, with texts between quotes. A value that stands inside itself is
left out there, and whole numbers of very many digits have no text. -/

namespace Colloquy.Data

/-- What stands for a value inside itself. -/
def hole : Data → String
  | pair _ _ => "(...)"
  | list _ => "[...]"
  | map _ => "\x7b...\x7d"
  | _ => "..."

def shownSet (members : List String) : String :=
  if members.isEmpty then "set()" else "\x7b" ++ ", ".intercalate members ++ "\x7d"

mutual

/-- A value in full, inside the values of some marks. -/
def shownIn (around : List Mark) : Data → String
  | null => "None"
  | bool b => if b then "True" else "False"
  | int i => toString i
  | float x => x.text
  | text s => Text.quoted s
  | bytes bs => Text.quotedBytes bs
  | stamp s => s.shown
  | pair first second => "(" ++ first.shownIn around ++ ", " ++ second.shownIn around ++ ")"
  | list items => "[" ++ ", ".intercalate (shownItems around items) ++ "]"
  | map entries => "\x7b" ++ ", ".intercalate (shownEntries around entries) ++ "\x7d"
  | set members => shownSet (shownItems around members)
  | shared mark value =>
    if around.contains mark then value.hole else value.shownIn (mark :: around)

def shownItems (around : List Mark) : List Data → List String
  | [] => []
  | x :: rest => x.shownIn around :: shownItems around rest

def shownEntries (around : List Mark) : List (Data × Data) → List String
  | [] => []
  | (k, v) :: rest => (k.shownIn around ++ ": " ++ v.shownIn around) :: shownEntries around rest

end

def shown (value : Data) : String := value.shownIn []

/-- A value as plain text: a text is itself, a day is written as usual, anything else in full. -/
def plain (value : Data) : String :=
  match value.bare with
  | text s => s
  | stamp s => s.text
  | _ => value.shown

mutual

/-- Whether a value inside the values of some marks has a text: no whole number in it has too many
digits. -/
def isShowableIn (around : List Mark) : Data → Bool
  | int i => i.natAbs < Nat.pow 10 Text.digitLimit
  | pair first second => first.isShowableIn around && second.isShowableIn around
  | list items => areShowable around items
  | map entries => areShowableEntries around entries
  | set members => areShowable around members
  | shared mark value => around.contains mark || value.isShowableIn (mark :: around)
  | _ => true

def areShowable (around : List Mark) : List Data → Bool
  | [] => true
  | x :: rest => x.isShowableIn around && areShowable around rest

def areShowableEntries (around : List Mark) : List (Data × Data) → Bool
  | [] => true
  | (k, v) :: rest => k.isShowableIn around && v.isShowableIn around && areShowableEntries around rest

end

def isShowable (value : Data) : Bool := value.isShowableIn []

def plain? (value : Data) : Option String := if value.isShowable then some value.plain else none

end Colloquy.Data
