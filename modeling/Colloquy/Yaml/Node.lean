import Colloquy.Yaml.Layout
import Colloquy.Yaml.Scalar

/-! Data files as nodes with tags. A node refers to the nodes inside it by their numbers, so that a node
with a name can stand in several places, inside itself too. -/

namespace Colloquy.Yaml

/-- A node: a scalar, a sequence, or a mapping. -/
inductive Node where
  | scalar (tag : Tag) (text : String)
  | sequence (tag : Tag) (items : List Nat)
  | mapping (tag : Tag) (entries : List (Nat × Nat))

instance : Inhabited Node := ⟨.scalar .null ""⟩

def Node.tag : Node → Tag
  | .scalar tag _ | .sequence tag _ | .mapping tag _ => tag

/-- What a data file holds: the nodes by their numbers, the numbers in the order in which the nodes
end, whether some node stands inside itself, and the number of the outermost node. -/
structure Document where
  nodes : Array Node
  order : List Nat
  hasLoop : Bool
  root : Nat

def Document.node (d : Document) (n : Nat) : Node := d.nodes[n]?.getD default

/-- What is known while nodes are read: the symbols left, what handles of tags stand for, the numbers
of the nodes that have names, the nodes, those that have not ended yet, those that have, the last one
first, and whether a name has been used inside its own node. -/
structure Reading where
  tokens : List Token
  handles : List (String × String)
  names : List (String × Nat)
  nodes : Array Node
  unfinished : List Nat
  finished : List Nat
  hasLoop : Bool

abbrev Reader := StateT Reading (Except Error)

namespace Reader

def peek? : Reader (Option Token) := do return (← get).tokens.head?

/-- Fails because the file is not well-formed here, or because it cannot be read beyond this place. -/
def malformed {α : Type} : Reader α := do
  match ← peek? with
  | some (.broken why) => throw why
  | _ => throw .malformed

def skip : Reader Unit := modify fun r => { r with tokens := r.tokens.drop 1 }

def nextIs (t : Token) : Reader Bool := do return (← peek?) == some t

def nextIn (ts : List Token) : Reader Bool := do return (← peek?).any ts.contains

def skipIf (t : Token) : Reader Bool := do
  if ← nextIs t then
    skip
    return true
  else return false

def standardHandles : List (String × String) := [("!", "!"), ("!!", "tag:yaml.org,2002:")]

def tagNamed (name : String) : Tag :=
  let standard : List (String × Tag) := [("null", .null), ("bool", .bool), ("int", .int),
    ("float", .float), ("binary", .binary), ("timestamp", .timestamp), ("str", .text),
    ("seq", .sequence), ("omap", .pairs), ("pairs", .pairs), ("map", .mapping), ("set", .set),
    ("merge", .merge), ("value", .default)]
  (standard.lookup ((name.dropPrefix "tag:yaml.org,2002:").toString)).elim .other fun tag =>
    if name.startsWith "tag:yaml.org,2002:" then tag else .other

/-- What a node is announced with. A tag that is a single exclamation mark counts as given, but the
form of the node decides. -/
structure Properties where
  anchor : Option String
  tag : Option String

def readAnchor : Reader (Option String) := do
  match ← peek? with
  | some (.anchor name) =>
    skip
    return some name
  | _ => return none

def readTag : Reader (Option String) := do
  match ← peek? with
  | some (.tag handle suffix) =>
    skip
    match handle with
    | none => return some suffix
    | some handle =>
      match (← get).handles.lookup handle with
      | some start => return some (start ++ suffix)
      | none => malformed
  | _ => return none

def readProperties : Reader Properties := do
  match ← readAnchor with
  | some name => return ⟨some name, ← readTag⟩
  | none =>
    let tag ← readTag
    let anchor ← if tag.isSome then readAnchor else pure none
    return ⟨anchor, tag⟩

def scalarTag (p : Properties) (text : String) (isPlain : Bool) : Tag :=
  match p.tag with
  | none => if isPlain then Scalar.tagOf text.toList else .text
  | some "!" => Scalar.tagOf text.toList
  | some tag => tagNamed tag

def collectionTag (p : Properties) (usual : Tag) : Tag :=
  match p.tag with
  | none => usual
  | some "!" => usual
  | some tag => tagNamed tag

/-- Gives a node its name, if it is announced with one. No name is given twice. -/
def giveName (p : Properties) (n : Nat) : Reader Unit := do
  match p.anchor with
  | none => return
  | some name =>
    if ((← get).names.lookup name).isSome then throw .malformed
    modify fun r => { r with names := (name, n) :: r.names }

def addScalar (p : Properties) (tag : Tag) (text : String) : Reader Nat := do
  let n := (← get).nodes.size
  giveName p n
  modify fun r => { r with nodes := r.nodes.push (.scalar tag text), finished := n :: r.finished }
  return n

/-- The greatest number of nodes that may stand inside one another. -/
def nestingLimit : Nat := 480

def beginNode (p : Properties) : Reader Nat := do
  if nestingLimit ≤ (← get).unfinished.length then throw (.breakdown .tooDeep)
  let n := (← get).nodes.size
  giveName p n
  modify fun r => { r with nodes := r.nodes.push default, unfinished := n :: r.unfinished }
  return n

def endNode (n : Nat) (node : Node) : Reader Nat := do
  modify fun r => { r with
    nodes := r.nodes.setIfInBounds n node
    unfinished := r.unfinished.erase n
    finished := n :: r.finished }
  return n

def named (name : String) : Reader Nat := do
  match (← get).names.lookup name with
  | some n =>
    modify fun r => { r with hasLoop := r.hasLoop || r.unfinished.contains n }
    return n
  | none => throw .malformed

def addEmpty : Reader Nat := addScalar ⟨none, none⟩ .null ""

def emptyOr (p : Properties) : Reader Nat :=
  if p.anchor.isSome || p.tag.isSome then addScalar p (scalarTag p "" true) "" else malformed

mutual

/-- A node. Blocks are read only where they may stand, and a sequence at the indentation of the
mapping that it belongs to only as a value there. -/
def readNode : (steps : Nat) → (block flush : Bool) → Reader Nat
  | 0, _, _ => malformed
  | steps + 1, block, flush => do
    match ← peek? with
    | some (.alias name) =>
      skip
      named name
    | _ =>
      let p ← readProperties
      match ← peek? with
      | some .blockEntry =>
        if flush then
          let n ← beginNode p
          endNode n (.sequence (collectionTag p .sequence) (← readFlush steps []))
        else emptyOr p
      | some (.scalar text isPlain) =>
        skip
        addScalar p (scalarTag p text isPlain) text
      | some .flowSequence =>
        skip
        let n ← beginNode p
        endNode n (.sequence (collectionTag p .sequence) (← readFlowItems steps true []))
      | some .flowMapping =>
        skip
        let n ← beginNode p
        endNode n (.mapping (collectionTag p .mapping) (← readFlowEntries steps true []))
      | some .blockSequence =>
        if block then
          skip
          let n ← beginNode p
          endNode n (.sequence (collectionTag p .sequence) (← readItems steps []))
        else emptyOr p
      | some .blockMapping =>
        if block then
          skip
          let n ← beginNode p
          endNode n (.mapping (collectionTag p .mapping) (← readEntries steps []))
        else emptyOr p
      | _ => emptyOr p

def readItems : (steps : Nat) → (items : List Nat) → Reader (List Nat)
  | 0, _ => malformed
  | steps + 1, items => do
    if ← skipIf .blockEntry then
      let item ← if ← nextIn [.blockEntry, .blockEnd] then addEmpty
        else readNode steps true false
      readItems steps (items ++ [item])
    else if ← skipIf .blockEnd then return items
    else malformed

/-- The items of a sequence that is flush with the mapping around it. -/
def readFlush : (steps : Nat) → (items : List Nat) → Reader (List Nat)
  | 0, _ => malformed
  | steps + 1, items => do
    if ← skipIf .blockEntry then
      let item ← if ← nextIn [.blockEntry, .key, .value, .blockEnd] then addEmpty
        else readNode steps true false
      readFlush steps (items ++ [item])
    else return items

def readEntries : (steps : Nat) → (entries : List (Nat × Nat)) → Reader (List (Nat × Nat))
  | 0, _ => malformed
  | steps + 1, entries => do
    if ← skipIf .key then
      let key ← if ← nextIn [.key, .value, .blockEnd] then addEmpty
        else readNode steps true true
      let value ← if ← skipIf .value then
          if ← nextIn [.key, .value, .blockEnd] then addEmpty else readNode steps true true
        else addEmpty
      readEntries steps (entries ++ [(key, value)])
    else if ← skipIf .blockEnd then return entries
    else malformed

/-- The items of a sequence between brackets. A key there makes a mapping of one entry. -/
def readFlowItems : (steps : Nat) → (first : Bool) → (items : List Nat) → Reader (List Nat)
  | 0, _, _ => malformed
  | steps + 1, first, items => do
    if ← skipIf .flowSequenceEnd then return items
    if !first then
      if !(← skipIf .flowEntry) then malformed
    if ← skipIf .key then
      let key ← if ← nextIn [.value, .flowEntry, .flowSequenceEnd] then addEmpty
        else readNode steps false false
      let value ← if ← skipIf .value then
          if ← nextIn [.flowEntry, .flowSequenceEnd] then addEmpty
          else readNode steps false false
        else addEmpty
      let n ← beginNode ⟨none, none⟩
      readFlowItems steps false (items ++ [← endNode n (.mapping .mapping [(key, value)])])
    else if ← skipIf .flowSequenceEnd then return items
    else
      let item ← readNode steps false false
      readFlowItems steps false (items ++ [item])

def readFlowEntries : (steps : Nat) → (first : Bool) → (entries : List (Nat × Nat)) →
    Reader (List (Nat × Nat))
  | 0, _, _ => malformed
  | steps + 1, first, entries => do
    if ← skipIf .flowMappingEnd then return entries
    if !first then
      if !(← skipIf .flowEntry) then malformed
    if ← skipIf .key then
      let key ← if ← nextIn [.value, .flowEntry, .flowMappingEnd] then addEmpty
        else readNode steps false false
      let value ← if ← skipIf .value then
          if ← nextIn [.flowEntry, .flowMappingEnd] then addEmpty
          else readNode steps false false
        else addEmpty
      readFlowEntries steps false (entries ++ [(key, value)])
    else if ← skipIf .flowMappingEnd then return entries
    else
      let key ← readNode steps false false
      readFlowEntries steps false (entries ++ [(key, ← addEmpty)])

end

/-- The directives before a document. Each may be given once, and only the first version of the
format is known. -/
def readDirectives : (steps : Nat) → (version : Bool) → (handles : List (String × String)) →
    Reader (Bool × List (String × String))
  | 0, _, _ => malformed
  | steps + 1, version, handles => do
    match ← peek? with
    | some (.versionDirective major) =>
      if version || major ≠ 1 then malformed
      skip
      readDirectives steps true handles
    | some (.tagDirective handle start) =>
      if (handles.lookup handle).isSome then malformed
      skip
      readDirectives steps version ((handle, start) :: handles)
    | some .otherDirective =>
      skip
      readDirectives steps version handles
    | _ => return (version, handles)

def skipEnds : (steps : Nat) → Reader Unit
  | 0 => return
  | steps + 1 => do if ← skipIf .documentEnd then skipEnds steps

def announced : Reader Bool := do
  match ← peek? with
  | some (.versionDirective _) | some (.tagDirective ..) | some .otherDirective
  | some .documentStart => return true
  | _ => return false

/-- The outermost node of the only document of a file, if there is one. -/
def readDocument (steps : Nat) : Reader (Option Nat) := do
  if (← peek?).isNone then return none
  let root ← if ← announced then do
      let (_, handles) ← readDirectives steps false []
      modify fun r => { r with handles := handles ++ standardHandles }
      if !(← skipIf .documentStart) then malformed
      if (← peek?).isNone || (← nextIs .documentEnd) || (← announced) then addEmpty
      else readNode steps true false
    else readNode steps true false
  skipEnds steps
  if (← peek?).isSome then malformed
  return some root

end Reader

/-- The only document of a text, if there is one. Every step of reading takes a symbol or follows
one that did. -/
def Document.ofText (text : List Char) : Except Error (Option Document) := do
  let tokens := Token.ofText text
  let start : Reading := ⟨tokens, Reader.standardHandles, [], #[], [], [], false⟩
  let (root, r) ← (Reader.readDocument (2 * tokens.length + 4)).run start
  return root.map fun root => ⟨r.nodes, r.finished.reverse, r.hasLoop, root⟩

end Colloquy.Yaml
