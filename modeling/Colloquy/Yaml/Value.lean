import Colloquy.Data
import Colloquy.Text.Base64
import Colloquy.Yaml.Node
import Colloquy.Yaml.Number

/-! Data from nodes. Collections are filled in the order in which they are found, outer ones before
inner ones, so that of two faults the outer one counts. -/

namespace Colloquy.Yaml

/-- What a node has become. Collections refer to what is inside them by the numbers of nodes. -/
inductive Cell where
  | scalar (value : Data)
  | list (items : List Nat)
  | pairs (items : List (Nat × Nat))
  | map (entries : List (Nat × Nat))
  | set (members : List Nat)

namespace Cell

def inside : Cell → List Nat
  | scalar _ => []
  | list items => items
  | pairs items => items.flatMap fun p => [p.1, p.2]
  | map entries => entries.flatMap fun p => [p.1, p.2]
  | set members => members

/-- Whether marks are kept for what a node has become. They are not for numbers, texts and bytes, of
which two alike cannot be told apart. -/
def keepsMark : Cell → Bool
  | scalar (.stamp _) => true
  | scalar _ => false
  | _ => true

end Cell

namespace Scalar

def isReal (s : Stamp) : Bool :=
  1 ≤ s.year && 1 ≤ s.month && s.month ≤ 12 && 1 ≤ s.day && s.day ≤ Stamp.daysIn s.year s.month &&
    match s.clock with
    | none => true
    | some c =>
      c.hour < 24 && c.minute < 60 && c.second < 60 &&
        c.offset.all fun m => -1440 < m && m < 1440

def stampOf (text : List Char) : Except Error Data :=
  match stamp? (withoutLineEnd text) with
  | some s => if isReal s then .ok (.stamp s) else badValue
  | none => .error (.breakdown .missingPart)

def bytesOf (text : List Char) : Except Error Data :=
  match Text.Base64.decode text with
  | some bytes => if text.all fun c => c.toNat < 128 then .ok (.bytes bytes) else .error .malformed
  | none => .error .malformed

def valueOf (tag : Tag) (text : String) : Except Error Data :=
  match tag with
  | .null => .ok .null
  | .bool =>
    match truth? (String.ofList (Text.lower text.toList)) with
    | some b => .ok (.bool b)
    | none => .error (.breakdown .unknownWord)
  | .int => (intOf text.toList).map .int
  | .float => (floatOf text.toList).map .float
  | .binary => bytesOf text.toList
  | .timestamp => stampOf text.toList
  | .text => .ok (.text text)
  | _ => .error .malformed

end Scalar

def Tag.isCollection : Tag → Bool
  | .sequence | .pairs | .mapping | .set => true
  | _ => false

namespace Document

/-- The text of a node: its own, or that of its default entry if it is a mapping. -/
def text (d : Document) : (steps : Nat) → Nat → Except Error String
  | 0, _ => .error .malformed
  | steps + 1, n =>
    match d.node n with
    | .scalar _ text => .ok text
    | .sequence _ _ => .error .malformed
    | .mapping _ entries =>
      match entries.find? fun p => (d.node p.1).tag == .default with
      | some p => d.text steps p.2
      | none => .error .malformed

/-- The value of a node of a kind that has no other nodes inside. The entries of a mapping make no
time. -/
def scalarValue (d : Document) (n : Nat) : Except Error Data := do
  let text ← d.text (d.nodes.size + 1) n
  match d.node n with
  | .scalar tag _ => Scalar.valueOf tag text
  | node => if node.tag = .timestamp then throw (.breakdown .wrongKind) else Scalar.valueOf node.tag text

/-- The entries of a mapping that are its own, not merged into it. -/
def ownEntries (d : Document) (entries : List (Nat × Nat)) : List (Nat × Nat) :=
  entries.filter fun p => (d.node p.1).tag != .merge

/-- The entries of a mapping with those of other mappings that it merges. Merged entries come first,
so that the mapping's own values win, and among mappings in a list the first one does. Of a mapping
that is being merged already, only its own entries count. -/
def flatten (d : Document) : (steps : Nat) → (busy : List Nat) → Nat → Except Error (List (Nat × Nat))
  | 0, _, _ => .error .malformed
  | steps + 1, busy, n =>
    match d.node n with
    | .mapping _ entries =>
      let own := d.ownEntries entries
      if busy.contains n then .ok own
      else do
        let merged ← entries.mapM fun p =>
          if (d.node p.1).tag = .merge then
            match d.node p.2 with
            | .mapping _ _ => d.flatten steps (n :: busy) p.2
            | .sequence _ items => do
              return (← items.mapM (d.flatten steps (n :: busy))).reverse.flatten
            | .scalar _ _ => .error .malformed
          else .ok []
        return merged.flatten ++ own
    | _ => .error .malformed

/-- Nodes while they become data: what they have become, and those that are to be filled, in order. -/
structure Growth where
  cells : Array (Option Cell)
  queue : Array Nat

abbrev Grower := StateT Growth (Except Error)

/-- Makes a node into a value, or into a collection that is yet to be filled. -/
def touch (d : Document) (n : Nat) : Grower Unit := do
  if ((← get).cells[n]?.join).isSome then return
  if (d.node n).tag.isCollection then
    modify fun g => ⟨g.cells.setIfInBounds n (some (.list [])), g.queue.push n⟩
  else
    let value ←
      if (d.node n).tag = .default ∨ (d.node n).tag = .merge then throw .malformed
      else d.scalarValue n
    modify fun g => { g with cells := g.cells.setIfInBounds n (some (.scalar value)) }

/-- Puts an entry into a mapping: a repeated key keeps its first place and takes its last value. What
is no number is the same key again if it is written as such. -/
def putEntry (sameKey : Nat → Nat → Bool) (key value : Nat) : List (Nat × Nat) → List (Nat × Nat)
  | [] => [(key, value)]
  | (k, v) :: rest =>
    if sameKey k key then (k, value) :: rest else (k, v) :: putEntry sameKey key value rest

/-- Makes a key into a value. A key that is called the default one is a text inside a mapping. -/
def touchKey (d : Document) (n : Nat) : Grower Unit := do
  match d.node n with
  | .scalar .default text =>
    modify fun g => { g with cells := g.cells.setIfInBounds n (some (.scalar (.text text))) }
  | _ => d.touch n

def isCommonNan (d : Document) (n : Nat) : Bool :=
  match d.text (d.nodes.size + 1) n with
  | .ok text =>
    (d.node n).tag == .float &&
      Scalar.unsigned (Text.lower (text.toList.filter (· != '_'))) == ".nan".toList
  | .error _ => false

def isSameKey (d : Document) (cells : Array (Option Cell)) (m n : Nat) : Bool :=
  m == n ||
    match cells[m]?.join, cells[n]?.join with
    | some (.scalar x), some (.scalar y) => x.sameKey y || (d.isCommonNan m && d.isCommonNan n)
    | _, _ => false

/-- The entries of a mapping with their keys and values made into data. -/
def growEntries (d : Document) (n : Nat) : Grower (List (Nat × Nat)) := do
  let entries ← d.flatten (d.nodes.size + 1) [] n
  entries.foldlM (fun done p => do
    d.touchKey p.1
    if (d.node p.1).tag.isCollection then throw .malformed
    d.touch p.2
    let cells := (← get).cells
    return putEntry (d.isSameKey cells) p.1 p.2 done) []

/-- The items of a sequence of pairs, each of them a mapping with one entry. -/
def growPairs (d : Document) (items : List Nat) : Grower (List (Nat × Nat)) :=
  items.mapM fun item => do
    match d.node item with
    | .mapping _ [p] =>
      d.touch p.1
      d.touch p.2
      return p
    | _ => throw .malformed

def grown (d : Document) (n : Nat) : Grower Cell := do
  match (d.node n).tag, d.node n with
  | .sequence, .sequence _ items =>
    items.forM d.touch
    return .list items
  | .pairs, .sequence _ items => return .pairs (← d.growPairs items)
  | .mapping, .mapping _ _ => return .map (← d.growEntries n)
  | .set, .mapping _ _ => return .set ((← d.growEntries n).map (·.1))
  | _, _ => throw .malformed

/-- Fills the collections from a place in the queue on. -/
def fillFrom (d : Document) : (steps : Nat) → (place : Nat) → Grower Unit
  | 0, _ => return
  | steps + 1, place => do
    match (← get).queue[place]? with
    | none => return
    | some n =>
      let cell ← d.grown n
      modify fun g => { g with cells := g.cells.setIfInBounds n (some cell) }
      d.fillFrom steps (place + 1)

/-- What the nodes have become, those that count. Every node is filled once at most. -/
def cells (d : Document) : Except Error (Array (Option Cell)) := do
  let start : Growth := ⟨Array.replicate d.nodes.size none, #[]⟩
  let (_, g) ← (do d.touch d.root; d.fillFrom (d.nodes.size + 1) 0 : Grower Unit).run start
  return g.cells

def uses (d : Document) (cells : Array (Option Cell)) : Array Nat :=
  let inside := cells.toList.flatMap fun cell => cell.elim [] Cell.inside
  (d.root :: inside).foldl (fun counts n => counts.modify n (· + 1))
    (Array.replicate d.nodes.size 0)

end Document

/-- The value of what a node has become, by the values of the nodes inside. A value that stands in
several places has a mark there, and so have the pairs of such a value. -/
def Cell.value (values : Array Data) (n : Nat) (isShared : Bool) (cell : Cell) : Data :=
  let valueAt (m : Nat) : Data := values[m]?.getD .null
  let marked (position : Nat) (value : Data) : Data :=
    if isShared && cell.keepsMark then .shared (n, position) value else value
  marked 0 <|
    match cell with
    | scalar value => value
    | list items => .list (items.map valueAt)
    | pairs items =>
      .list (items.zipIdx.map fun p => marked (p.2 + 1) (.pair (valueAt p.1.1) (valueAt p.1.2)))
    | map entries => .map (entries.map fun p => (valueAt p.1, valueAt p.2))
    | set members => .ofMembers (members.map valueAt)

namespace Document

/-- How often a value is unfolded that stands inside itself: as often as there are nodes, so that every
one of them has been met, and a few times more, for what looks inside. -/
def turns (d : Document) : Nat := if d.hasLoop then d.nodes.size + 10 else 1

/-- The value of the outermost node. In the order in which nodes end, what is inside a node comes
before it, if it is not the node itself or around it. -/
def value (d : Document) : Except Error Data := do
  let cells ← d.cells
  let uses := d.uses cells
  let turn (values : Array Data) : Array Data :=
    d.order.foldl (fun values n =>
      match cells[n]?.join with
      | some cell => values.setIfInBounds n (cell.value values n (1 < uses[n]?.getD 0))
      | none => values) values
  let values := (List.range d.turns).foldl (fun values _ => turn values)
    (Array.replicate d.nodes.size .null)
  return values[d.root]?.getD .null

end Document

/-- The value of a data file; that of an empty one is null. -/
def read (text : List Char) : Except Error Data := do
  match ← Document.ofText text with
  | some d => d.value
  | none => return .null

end Colloquy.Yaml
