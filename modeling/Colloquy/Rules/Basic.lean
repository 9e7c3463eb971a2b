import Colloquy.Reassembly
import Colloquy.Retouch
import Colloquy.Text.Case

/-! Rule sets: scripts made ready for conversations. -/

namespace Colloquy

namespace Rules

/-- A decomposition made ready: the pattern as written, its expression, what answers it, and whether
the answers are kept for later. -/
structure Decomposition where
  source : String
  expression : Regex.Expression
  reassemblies : List Reassembly
  kept : Bool
deriving DecidableEq

/-- A keyword made ready: the expression that finds it in a text, and its position in the script. -/
structure Rule where
  keyword : String
  rank : Int
  position : Nat
  matcher : Regex.Expression
  decompositions : List Decomposition
deriving DecidableEq

def opensWithCapture (e : Regex.Expression) : Bool := Pattern.capture.isPrefixOf e.source.toList

/-- The first match in a fragment. A capture at the start can begin at the start only. -/
def Decomposition.match? (d : Decomposition) (fragment : List Char) : Option Regex.Match :=
  if opensWithCapture d.expression then d.expression.body.matchStart? fragment
  else d.expression.body.search? fragment

def Rule.appliesTo (r : Rule) (text : List Char) : Bool := (r.matcher.body.search? text).isSome

def indexOf? (rules : List Rule) (keyword : String) : Option Nat :=
  rules.findIdx? (·.keyword == keyword)

def fallbackKeyword : String := "xnone"

end Rules

/-- Everything that a conversation needs, made ready. Rules are in the order in which they are
tried. -/
structure RuleSet where
  rules : List Rules.Rule
  pres : Substitutions
  posts : Substitutions
  retouches : List Retouch
  quits : List String
  initials : List String
  finals : List String
deriving DecidableEq

namespace RuleSet

def empty : RuleSet := ⟨[], .empty, .empty, [], [], [], []⟩

def indexOf? (s : RuleSet) (keyword : String) : Option Nat := Rules.indexOf? s.rules keyword

def fallback? (s : RuleSet) : Option Nat := s.indexOf? Rules.fallbackKeyword

end RuleSet
end Colloquy
