import Colloquy.Pattern.Synonym
import Colloquy.Substitution
import Colloquy.Data

/-! Scripts: everything that a conversation is driven by, as it is written. -/

namespace Colloquy

/-- A pattern with the reassemblies that may answer what it matches. -/
structure Script.Decomposition where
  pattern : String
  reassemblies : List String
deriving DecidableEq

/-- A keyword with its rank and its decompositions. -/
structure Script.Rule where
  keyword : String
  rank : Int
  decompositions : List Script.Decomposition
deriving DecidableEq

/-- A retouching of replies: a regular expression and what its matches are replaced by. -/
structure Script.Retouch where
  pattern : String
  replacement : String
deriving DecidableEq

/-- A script. -/
structure Script where
  rules : List Script.Rule
  synonyms : List Pattern.Synonym
  pres : List Substitution
  posts : List Substitution
  retouches : List Script.Retouch
  quits : List String
  initials : List String
  finals : List String
deriving DecidableEq

namespace Script

def empty : Script := ⟨[], [], [], [], [], [], [], []⟩

def Decomposition.toData (d : Decomposition) : Data :=
  .map [(.text "pattern", .text d.pattern), (.text "reassemblies", .texts d.reassemblies)]

def Rule.toData (r : Rule) : Data :=
  .map [(.text "keyword", .text r.keyword), (.text "rank", .int r.rank),
    (.text "decompositions", .list (r.decompositions.map Decomposition.toData))]

def Retouch.toData (r : Retouch) : Data :=
  .map [(.text "pattern", .text r.pattern), (.text "replacement", .text r.replacement)]

def substitutionData (pairs : List Substitution) : Data :=
  .ofPairs (pairs.map fun s => (.text s.word, .text s.replacement))

def toData (s : Script) : Data :=
  .map [
    (.text "initials", .texts s.initials),
    (.text "finals", .texts s.finals),
    (.text "quits", .texts s.quits),
    (.text "pres", substitutionData s.pres),
    (.text "posts", substitutionData s.posts),
    (.text "synonyms", .map (s.synonyms.map fun y => (.text y.word, .texts y.equivalents))),
    (.text "post_transforms", .list (s.retouches.map Retouch.toData)),
    (.text "keywords", .list (s.rules.map Rule.toData))]

end Script

namespace Pattern.Synonym

/-- Synonyms with one put in: in its word's place if the word has one, else at the end. -/
def put (s : Synonym) : List Synonym → List Synonym
  | [] => [s]
  | e :: rest => if e.word = s.word then s :: rest else e :: put s rest

/-- Synonyms put in one after the other, so that no word is repeated. -/
def distinct (synonyms : List Synonym) : List Synonym :=
  synonyms.foldl (fun entries s => put s entries) []

end Pattern.Synonym
end Colloquy
