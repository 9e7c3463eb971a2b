import Colloquy.Log.Noted
import Colloquy.Pattern.Compile
import Colloquy.Rules.Redirect
import Colloquy.Script.OfData

/-! From a script to a rule set. -/

namespace Colloquy.Rules

open Log

def source : String := "eliza.compiler"

def unknownReference (name : String) : Record :=
  ⟨.debug, source, s!"No synonyms for @{name}, using the bare word", none⟩

def unknownTarget (keyword target : String) : Record :=
  ⟨.warning, source, s!"'{keyword}' redirects to unknown keyword '{target}'", none⟩

def compileExpression (expression keyword written : String) (ignoreCase : Bool) :
    Except Failure Regex.Expression :=
  match Regex.Expression.parse expression ignoreCase with
  | .ok e => .ok e
  | .error e => .error (Retouch.ofRegexError (.badPattern · keyword written expression) expression e)

def compileDecomposition (synonyms : List Pattern.Synonym) (keyword : String)
    (d : Script.Decomposition) : Noted Decomposition := do
  if d.reassemblies.isEmpty then
    Noted.fail (.rules (.noReassemblies keyword d.pattern))
  Noted.note ((Pattern.unknownReferences synonyms d.pattern).map unknownReference)
  let t := Pattern.compile synonyms d.pattern
  let expression ← Noted.ofExcept (compileExpression t.source keyword d.pattern false)
  return ⟨d.pattern, expression, d.reassemblies.map Reassembly.parse, t.kept⟩

def matcherSource (keyword : String) : String := "\\b" ++ keyword ++ "\\b"

def compileRule (synonyms : List Pattern.Synonym) (r : Script.Rule) (position : Nat) :
    Noted Rule := do
  let matcher ← Noted.ofExcept
    (compileExpression (matcherSource r.keyword) r.keyword r.keyword true)
  let decompositions ← r.decompositions.mapM (compileDecomposition synonyms r.keyword)
  return ⟨r.keyword, r.rank, position, matcher, decompositions⟩

/-- Whether one rule is tried before another: rank first, then position. -/
def precedes (a b : Rule) : Bool := b.rank < a.rank || (a.rank == b.rank && a.position < b.position)

def insertRule (r : Rule) : List Rule → List Rule
  | [] => [r]
  | s :: rest => if precedes r s then r :: s :: rest else s :: insertRule r rest

def arrange (rules : List Rule) : List Rule := rules.foldr insertRule []

/-- Fails unless there is just one rule for the fallback keyword, and it has rank zero. -/
def checkFallback (rules : List Script.Rule) : Except Failure Unit :=
  match rules.filter (·.keyword == fallbackKeyword) with
  | [r] => if r.rank = 0 then .ok () else .error (.rules (.fallbackRank r.rank))
  | found => .error (.rules (.fallbackCount found.length))

/-- Fails if redirections form a cycle. -/
def checkCycles (rules : List Rule) : Except Failure Unit :=
  match redirectCycle? rules with
  | some way => .error (.rules (.cycle way))
  | none => .ok ()

/-- Rules made ready and put into the order in which they are tried. -/
def compileRules (synonyms : List Pattern.Synonym) (rules : List Script.Rule) :
    Noted (List Rule) := do
  Noted.ofExcept (checkFallback rules)
  let compiled ← rules.zipIdx.mapM fun p => compileRule synonyms p.1 p.2
  let arranged := resolve (arrange compiled)
  Noted.ofExcept (checkCycles arranged)
  Noted.note ((unknownTargets arranged).map fun p => unknownTarget p.1 p.2)
  return arranged

def compileEntries (synonyms : List Pattern.Synonym) (entries : List Script.Entry) :
    Noted (List Rule) := do
  compileRules synonyms (← Noted.ofExcept (entries.mapM Script.Entry.toRule))

def compileData (synonyms : List Pattern.Synonym) (entries : List Data) : Noted (List Rule) :=
  compileEntries synonyms (entries.map .data)

def compiledRecord (s : RuleSet) : Record :=
  let count := s.rules.length
  ⟨.info, source,
    s!"Compiled {count} keyword rules ({s.pres.size} pre / {s.posts.size} post substitutions)", none⟩

/-- A rule set from rules made ready and the other parts of a script. -/
def ruleSetOf (rules : List Rule) (s : Script) : Noted RuleSet := do
  let retouches ← Noted.ofExcept (s.retouches.mapM Retouch.compile)
  let set : RuleSet :=
    { rules, pres := .ofPairs s.pres, posts := .ofPairs s.posts, retouches
      quits := s.quits.map fun q => String.ofList (Text.lower q.toList)
      initials := s.initials, finals := s.finals }
  Noted.note [compiledRecord set]
  return set

def compileSet (entries : List Script.Entry) (s : Script) : Noted RuleSet := do
  ruleSetOf (← compileEntries s.synonyms entries) s

end Colloquy.Rules

namespace Colloquy.Script

def compile (s : Script) : Log.Noted RuleSet := Rules.compileSet (s.rules.map .rule) s

end Colloquy.Script
