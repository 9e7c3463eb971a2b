import Colloquy.Text.Cursor

/-! Tables that replace whole words. Words are found as they are written, from left to right, and
what replaces a word is not looked at again. -/

namespace Colloquy

open Text

/-- What a word is replaced by. -/
structure Substitution where
  word : String
  replacement : String
deriving DecidableEq

/-- Substitutions of different words. At one place the first word that fits is taken. -/
structure Substitutions where
  entries : List Substitution
deriving DecidableEq

namespace Substitutions

/-- Entries with a substitution put in: in its word's place if the word has one, else at the end. -/
def put (s : Substitution) : List Substitution → List Substitution
  | [] => [s]
  | e :: rest => if e.word = s.word then s :: rest else e :: put s rest

def ofPairs (pairs : List Substitution) : Substitutions :=
  ⟨pairs.foldl (fun entries s => put s entries) []⟩

def empty : Substitutions := ⟨[]⟩

def size (t : Substitutions) : Nat := t.entries.length

def wordEnd? (word : List Char) (place : Cursor) : Option Cursor :=
  if place.atEdge then
    match place.skip? word with
    | some stop => if stop.atEdge then some stop else none
    | none => none
  else none

/-- The first entry whose word stands here: its replacement, and the place after the word. -/
def find? (entries : List Substitution) (nonempty : Bool) (place : Cursor) :
    Option (List Char × Cursor) :=
  entries.findSome? fun e =>
    if nonempty && e.word.isEmpty then none
    else (wordEnd? e.word.toList place).map fun stop => (e.replacement.toList, stop)

def applyTo (t : Substitutions) (text : List Char) : List Char :=
  Cursor.replaceAll (find? t.entries) text

def apply (t : Substitutions) (text : String) : String := String.ofList (t.applyTo text.toList)

end Substitutions
end Colloquy
