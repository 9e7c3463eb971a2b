import Colloquy.Pattern.Synonym

/-! Patterns as regular expressions. -/

namespace Colloquy.Pattern

open Text

def widenGaps (text : List Char) : List Char :=
  (runs isBlank text).flatMap fun r => if r.kind then gap else r.chars

/-- A pattern as a regular expression, and whether its replies are kept for later. -/
structure Compiled where
  source : String
  kept : Bool
deriving DecidableEq

/-- The pattern after its dollar sign and the spaces that follow it, if it has one. -/
def unmarked (pattern : List Char) : List Char :=
  match pattern with
  | '$' :: rest => rest.dropWhile (· == ' ')
  | _ => pattern

/-- A pattern as a regular expression. References are resolved first, then asterisks become captures,
and last every gap becomes the expression for a gap. -/
def compile (synonyms : List Synonym) (pattern : String) : Compiled :=
  let chars := pattern.toList
  { source := String.ofList (widenGaps (expand (expandReferences synonyms (unmarked chars))))
    kept := chars.head? == some '$' }

def unknownReferences (synonyms : List Synonym) (pattern : String) : List String :=
  (references (unmarked pattern.toList)).filter fun name => (groupOf? synonyms name).isNone

end Colloquy.Pattern
