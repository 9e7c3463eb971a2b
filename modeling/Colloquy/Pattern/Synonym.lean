import Colloquy.Pattern.Wildcard

/-! Groups of equivalent words, and references to them in patterns. -/

namespace Colloquy.Pattern

open Text

/-- A word with the words that mean the same. -/
structure Synonym where
  word : String
  equivalents : List String
deriving DecidableEq

/-- The expression for a word and its equivalents: alternatives in parentheses. -/
def Synonym.group (s : Synonym) : String :=
  "(" ++ "|".intercalate (s.word :: s.equivalents) ++ ")"

def groupOf? (synonyms : List Synonym) (word : String) : Option String :=
  (synonyms.find? (·.word == word)).map Synonym.group

/-- Where a reference stands in characters without blanks: what is before its sign, and its name. It
reaches to the end of the characters. -/
def reference? : List Char → Option (List Char × List Char)
  | [] => none
  | '@' :: [] => none
  | '@' :: c :: name => some ([], c :: name)
  | c :: rest => (reference? rest).map fun p => (c :: p.1, p.2)

/-- What a reference stands for: the group of its word, or the bare word if it has none. -/
def resolve (synonyms : List Synonym) (name : List Char) : List Char :=
  match groupOf? synonyms (String.ofList name) with
  | some group => group.toList
  | none => name

/-- Characters without blanks, with a reference in them resolved. -/
def resolveRun (synonyms : List Synonym) (chars : List Char) : List Char :=
  match reference? chars with
  | some (before, name) => before ++ resolve synonyms name
  | none => chars

def references (pattern : List Char) : List String :=
  (runs isBlank pattern).filterMap fun r =>
    if r.kind then none else (reference? r.chars).map fun p => String.ofList p.2

def expandReferences (synonyms : List Synonym) (pattern : List Char) : List Char :=
  (runs isBlank pattern).flatMap fun r =>
    if r.kind then r.chars else resolveRun synonyms r.chars

end Colloquy.Pattern
