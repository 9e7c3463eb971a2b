import Colloquy.Failure
import Colloquy.Script.Basic

/-! Scripts from data. A keyword rule is a map, or a list of keyword, rank and decompositions. Texts
can be taken apart like lists, into texts of one character, and maps into their keys. -/

namespace Colloquy

namespace Data

def kindName : Data → String
  | null => "NoneType"
  | bool _ => "bool"
  | int _ => "int"
  | float _ => "float"
  | text _ => "str"
  | bytes _ => "bytes"
  | stamp s => if s.clock.isSome then "datetime.datetime" else "datetime.date"
  | pair _ _ => "tuple"
  | list _ => "list"
  | map _ => "dict"
  | set _ => "set"
  | shared _ value => value.kindName

def ofChar (c : Char) : Data := .text (String.ofList [c])

def ofByte (b : UInt8) : Data := .int b.toNat

/-- The part of a value at a position, or at the number as a key. -/
def at? (index : Nat) (value : Data) : Except EntryFault Data :=
  match value.bare with
  | list items => (items[index]?).elim (.error .listEnds) .ok
  | pair first second => ([first, second][index]?).elim (.error .pairEnds) .ok
  | text s => (s.toList[index]?).elim (.error .textEnds) (.ok <| ofChar ·)
  | bytes bs => (bs[index]?).elim (.error .bytesEnd) (.ok <| ofByte ·)
  | map entries => (lookup (.int index) entries).elim (.error (.missingKey index)) .ok
  | _ => .error (.notIndexed value.kindName)

/-- The parts of a value one after the other. -/
def parts? (value : Data) : Except EntryFault (List Data) :=
  match value.bare with
  | list items => .ok items
  | pair first second => .ok [first, second]
  | set members => .ok members
  | text s => .ok (s.toList.map ofChar)
  | bytes bs => .ok (bs.map ofByte)
  | map entries => .ok (entries.map Prod.fst)
  | _ => .error (.notIterable value.kindName)

def allTexts? : List Data → Option (List String)
  | [] => some []
  | text s :: rest => (allTexts? rest).map (s :: ·)
  | _ :: _ => none

end Data

namespace Script

/-- A decomposition whose parts have not been checked. -/
structure RawDecomposition where
  pattern : Data
  reassemblies : List Data

/-- A rule whose parts have not been checked. -/
structure RawRule where
  keyword : Data
  rank : Data
  decompositions : List RawDecomposition

def RawDecomposition.check (keyword : String) (d : RawDecomposition) :
    Except ScriptProblem Decomposition :=
  match d.pattern with
  | .text pattern =>
    match Data.allTexts? d.reassemblies with
    | some reassemblies => .ok ⟨pattern, reassemblies⟩
    | none => .error (.badReassemblies keyword pattern)
  | pattern => .error (.badPattern keyword pattern)

/-- Checks a rule: keyword first, then rank, then the decompositions in order. -/
def RawRule.check (r : RawRule) : Except ScriptProblem Rule :=
  match r.keyword with
  | .text keyword =>
    if keyword.isEmpty then .error (.badKeyword r.keyword)
    else
      match r.rank with
      | .int rank => do
        let decompositions ← r.decompositions.mapM (RawDecomposition.check keyword)
        return ⟨keyword, rank, decompositions⟩
      | rank => .error (.badRank keyword rank)
  | keyword => .error (.badKeyword keyword)

def RawDecomposition.ofList (d : Data) : Except EntryFault RawDecomposition := do
  let pattern ← d.at? 0
  let reassemblies ← d.at? 1
  return ⟨pattern, ← reassemblies.parts?⟩

def RawRule.ofList (entry : Data) : Except EntryFault RawRule := do
  let keyword ← entry.at? 0
  let rank ← entry.at? 1
  let decompositions ← entry.at? 2
  return ⟨keyword, rank, ← (← decompositions.parts?).mapM RawDecomposition.ofList⟩

def reported {α : Type} : Except ScriptProblem α → Except Failure α
  | .ok a => .ok a
  | .error p => .error (.script p)

def Rule.ofList (entry : Data) : Except Failure Rule :=
  match RawRule.ofList entry with
  | .ok raw => reported raw.check
  | .error why => .error (.script (.malformedEntry why entry))

/-- The parts of an optional part, none if it stands for nothing. -/
def partsOf (value : Option Data) : Except Failure (List Data) :=
  match value with
  | none => .ok []
  | some value =>
    if value.isTruthy then
      match value.parts? with
      | .ok items => .ok items
      | .error _ => .error (.breakdown .wrongKind)
    else .ok []

def RawDecomposition.ofMap (keyword d : Data) : Except Failure RawDecomposition :=
  match d.entries? with
  | some entries =>
    match Data.field? "pattern" entries with
    | some pattern => do return ⟨pattern, ← partsOf (Data.field? "reassemblies" entries)⟩
    | none => .error (.script (.notDecomposition keyword d))
  | none => .error (.script (.notDecomposition keyword d))

def Rule.ofMap (entry : Data) : Except Failure Rule :=
  match entry.entries? with
  | some entries =>
    match Data.field? "keyword" entries with
    | some keyword => do
      let parts ← partsOf (Data.field? "decompositions" entries)
      let decompositions ← parts.mapM (RawDecomposition.ofMap keyword)
      let rank := (Data.field? "rank" entries).getD (.int 0)
      reported (RawRule.check ⟨keyword, rank, decompositions⟩)
    | none => .error (.script (.notRule entry))
  | none => .error (.script (.notRule entry))

def Rule.ofData (entry : Data) : Except Failure Rule :=
  if entry.entries?.isSome then Rule.ofMap entry else Rule.ofList entry

/-- A keyword rule as it is handed over: made already, or as data. -/
inductive Entry where
  | rule (r : Rule)
  | data (value : Data)

def Entry.toRule : Entry → Except Failure Rule
  | .rule r => .ok r
  | .data value => Rule.ofData value

/-- The text that a value is made into. -/
def textOf (value : Data) : Except Failure String :=
  match value.plain? with
  | some text => .ok text
  | none => .error (.breakdown .badValue)

def substitutionOf (p : Data × Data) : Except Failure Substitution := do
  return ⟨← textOf p.1, ← textOf p.2⟩

/-- Substitutions from a map or a list of pairs. The form of all pairs is checked first. -/
def substitutionsOf (part : String) : Option Data → Except Failure (List Substitution)
  | none => .ok []
  | some value =>
    if !value.isTruthy then .ok []
    else
      match value.entries?, value.items?.bind (·.mapM Data.two?) with
      | some entries, _ => entries.mapM substitutionOf
      | none, some pairs => pairs.mapM substitutionOf
      | none, none => .error (.script (.notPairs part))

def retouchOf (item : Data) : Except Failure Retouch :=
  match item.entries?.bind (Data.field? "pattern"), item.two? with
  | some pattern, _ => do
    let replacement := (item.entries?.bind (Data.field? "replacement")).getD (.text "")
    return ⟨← textOf pattern, ← textOf replacement⟩
  | none, some (pattern, replacement) => do return ⟨← textOf pattern, ← textOf replacement⟩
  | none, none => .error (.script (.badTransform item))

def retouchesOf : Option Data → Except Failure (List Retouch)
  | none => .ok []
  | some value =>
    if !value.isTruthy then .ok []
    else
      match value.items? with
      | some items => items.mapM retouchOf
      | none => .error (.script .transformsNotList)

def textsOf (part : String) : Option Data → Except Failure (List String)
  | none => .ok []
  | some value =>
    if !value.isTruthy then .ok []
    else
      match value.items? with
      | some items => items.mapM textOf
      | none => .error (.script (.notList part))

def synonymOf (entry : Data × Data) : Except Failure Pattern.Synonym := do
  return ⟨← textOf entry.1, ← (← partsOf (some entry.2)).mapM textOf⟩

/-- A script from a map of its parts. The shapes of the keywords and the synonyms are checked before
anything is read. -/
def ofData (value : Data) : Except Failure Script :=
  match value.entries? with
  | some entries => do
    let keywords ← match Data.field? "keywords" entries with
      | none => .ok []
      | some value =>
        if !value.isTruthy then .ok []
        else
          match value.items? with
          | some items => .ok items
          | none => .error (.script .keywordsNotList)
    let synonyms ← match Data.field? "synonyms" entries with
      | none => .ok []
      | some value =>
        if !value.isTruthy then .ok []
        else
          match value.entries? with
          | some entries => .ok entries
          | none => .error (.script .synonymsNotMapping)
    return {
      rules := ← keywords.mapM Rule.ofData
      synonyms := Pattern.Synonym.distinct (← synonyms.mapM synonymOf)
      pres := ← substitutionsOf "pres" (Data.field? "pres" entries)
      posts := ← substitutionsOf "posts" (Data.field? "posts" entries)
      retouches := ← retouchesOf (Data.field? "post_transforms" entries)
      quits := ← textsOf "quits" (Data.field? "quits" entries)
      initials := ← textsOf "initials" (Data.field? "initials" entries)
      finals := ← textsOf "finals" (Data.field? "finals" entries) }
  | none => .error (.script .notMapping)

end Script
end Colloquy
