import Colloquy.Failure
import Colloquy.Text.Integer
import Colloquy.Text.Quoted

/-! What a decomposition answers with: a template, or the rule of another keyword. -/

namespace Colloquy

open Text

/-- A template with places for captured texts, or a keyword whose rule answers instead, with the
position of that rule once it is known. -/
inductive Reassembly where
  | literal (template : String)
  | redirect (target : String) (index : Option Nat)
deriving DecidableEq

namespace Reassembly

/-- The word that announces a redirection, in any case, with the space after it. -/
def announcement : List Char := "goto ".toList

def parse (text : String) : Reassembly :=
  if (text.toList.take announcement.length).map lowerOne = announcement then
    .redirect (String.ofList (text.toList.drop announcement.length)) none
  else .literal text

def shown : Reassembly → String
  | .literal template => "Literal(template=" ++ quoted template ++ ")"
  | .redirect target index =>
    "Redirect(target=" ++ quoted target ++ ", index=" ++ (index.elim "None" toString) ++ ")"

def isRedirect : Reassembly → Bool
  | .literal _ => false
  | .redirect _ _ => true

end Reassembly

namespace Template

/-- A piece of a template: a character, or the digits between parentheses that name a capture. -/
inductive Piece where
  | char (c : Char)
  | capture (digits : List Char)
deriving DecidableEq

/-- The characters of an opening parenthesis and the digits after it, given last first. -/
def unfinished (digits : List Char) : List Piece := ('(' :: digits.reverse).map .char

/-- The pieces of a template. Once a parenthesis has been opened, `pending` holds the digits after
it, last first. -/
def piecesFrom : (pending : Option (List Char)) → List Char → List Piece
  | none, [] => []
  | some digits, [] => unfinished digits
  | none, c :: rest =>
    if c = '(' then piecesFrom (some []) rest else .char c :: piecesFrom none rest
  | some digits, c :: rest =>
    if isDigit c then piecesFrom (some (c :: digits)) rest
    else if c = ')' ∧ digits ≠ [] then .capture digits.reverse :: piecesFrom none rest
    else if c = '(' then unfinished digits ++ piecesFrom (some []) rest
    else unfinished digits ++ .char c :: piecesFrom none rest

def pieces (template : String) : List Piece := piecesFrom none template.toList

/-- A template with each capture replaced, given the text for its number. A number may have more
digits than can be read. -/
def fill (text : Nat → Except Breakdown (List Char)) : List Piece → Except Breakdown (List Char)
  | [] => .ok []
  | .char c :: rest => do return c :: (← fill text rest)
  | .capture digits :: rest =>
    match natural? digits with
    | none => .error .badValue
    | some n => do return (← text n) ++ (← fill text rest)

end Template
end Colloquy
