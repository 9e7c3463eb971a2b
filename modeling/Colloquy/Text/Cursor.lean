import Colloquy.Text.Character

/-! A place in a text, and replacement of everything that is found there. -/

namespace Colloquy.Text

/-- A place in a text: what stands before it, last character first, and what stands after it. -/
structure Cursor where
  before : List Char
  after : List Char
deriving DecidableEq

namespace Cursor

def start (text : List Char) : Cursor := ⟨[], text⟩

def text (c : Cursor) : List Char := c.before.reverse ++ c.after

/-- Whether exactly one of the two characters next to a place belongs to a class. -/
def atEdgeOf (isMember : Char → Bool) (c : Cursor) : Bool :=
  c.before.head?.any isMember != c.after.head?.any isMember

def atEdge (c : Cursor) : Bool := c.atEdgeOf isWord

/-- The place that is `n` characters further on, if there are as many. -/
def forward? : Nat → Cursor → Option Cursor
  | 0, c => some c
  | _ + 1, ⟨_, []⟩ => none
  | n + 1, ⟨before, x :: after⟩ => forward? n ⟨x :: before, after⟩

def back? : Nat → Cursor → Option Cursor
  | 0, c => some c
  | _ + 1, ⟨[], _⟩ => none
  | n + 1, ⟨x :: before, after⟩ => back? n ⟨before, x :: after⟩

def skip? : List Char → Cursor → Option Cursor
  | [], c => some c
  | _ :: _, ⟨_, []⟩ => none
  | w :: word, ⟨before, x :: after⟩ => if w = x then skip? word ⟨x :: before, after⟩ else none

/-- The text from a place to the end, with everything replaced that `find` finds, from left to right
and without overlap. `find` is asked for a replacement and the place where the replaced text ends.
It is told when it must not answer with nothing, which is after it has just done so at the same
place; elsewhere it may replace an empty text. -/
def replaceFrom (find : (nonempty : Bool) → Cursor → Option (List Char × Cursor)) :
    (steps : Nat) → (nonempty : Bool) → Cursor → List Char
  | 0, _, c => c.after
  | steps + 1, nonempty, c =>
    match find nonempty c with
    | some (replacement, stop) =>
      replacement ++ replaceFrom find steps (stop.after.length == c.after.length) stop
    | none =>
      match c with
      | ⟨_, []⟩ => []
      | ⟨before, x :: after⟩ => x :: replaceFrom find steps false ⟨x :: before, after⟩

/-- A text with everything replaced that `find` finds. Every place is visited at most twice. -/
def replaceAll (find : (nonempty : Bool) → Cursor → Option (List Char × Cursor))
    (text : List Char) : List Char :=
  replaceFrom find (2 * text.length + 2) false (start text)

end Cursor
end Colloquy.Text
