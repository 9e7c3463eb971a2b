import Colloquy.Yaml.Token

/-! From text to symbols. Blocks begin and end by indentation, and a colon after a short text on one
line makes that text a key, even though the key's mark has to stand before it. -/

namespace Colloquy.Yaml

open Source

/-- A symbol that turns out to be a key if a colon follows it: the number of symbols before it, and
its place. A required key has to turn out to be one. -/
structure PossibleKey where
  position : Nat
  required : Bool
  index : Nat
  line : Nat
  column : Nat

/-- The state of finding symbols. Symbols are held last first. `flow` counts open brackets, and a
possible key belongs to a number of them. -/
structure Layout where
  source : Source
  tokens : List Token
  flow : Nat
  indent : Int
  indents : List Int
  keyAllowed : Bool
  keys : List (Nat × PossibleKey)

namespace Layout

def start (text : List Char) : Layout :=
  ⟨Source.start text, [], 0, -1, [], true, []⟩

def push (l : Layout) (t : Token) : Layout := { l with tokens := t :: l.tokens }

def insertAt (l : Layout) (position : Nat) (t : Token) : Layout :=
  let behind := l.tokens.length - position
  { l with tokens := l.tokens.take behind ++ t :: l.tokens.drop behind }

def moveTo (l : Layout) (s : Source) : Layout := { l with source := s }

/-- Without the possible keys that cannot be keys any more: those on other lines and those too far
back. -/
def dropStale (l : Layout) : Except Error Layout :=
  let isStale (k : PossibleKey) : Bool :=
    k.line != l.source.line || 1024 < l.source.index - k.index
  if l.keys.any fun p => isStale p.2 && p.2.required then .error .malformed
  else .ok { l with keys := l.keys.filter fun p => !isStale p.2 }

def dropKey (l : Layout) : Except Error Layout :=
  match l.keys.lookup l.flow with
  | some k =>
    if k.required then .error .malformed
    else .ok { l with keys := l.keys.filter fun p => p.1 != l.flow }
  | none => .ok l

/-- With what comes next as a possible key, if keys may stand here. -/
def saveKey (l : Layout) : Except Error Layout :=
  if l.keyAllowed then do
    let l ← l.dropKey
    let required := l.flow == 0 && l.indent == (l.source.column : Int)
    let k : PossibleKey :=
      ⟨l.tokens.length, required, l.source.index, l.source.line, l.source.column⟩
    return { l with keys := (l.flow, k) :: l.keys }
  else .ok l

/-- With all blocks ended that are indented more than a column. -/
def unwind (column : Int) : (outer : List Int) → Layout → Layout
  | [], l => l
  | outer :: rest, l =>
    if column < l.indent then
      unwind column rest { l.push .blockEnd with indent := outer, indents := rest }
    else l

/-- With all blocks ended that are indented more than a column, outside of brackets. -/
def unwindTo (l : Layout) (column : Int) : Layout :=
  if l.flow = 0 then unwind column l.indents l else l

def opensBlock (l : Layout) (column : Nat) : Bool := l.indent < (column : Int)

def openBlock (l : Layout) (column : Nat) : Layout :=
  { l with indents := l.indent :: l.indents, indent := column }

/-- Past blanks, comments and line ends. A new line may begin with a key. -/
def skipBlanks : (steps : Nat) → Layout → Layout
  | 0, l => l
  | steps + 1, l =>
    let s := l.source.skipSpaces
    let s := if s.nextIs '#' then s.skipLine else s
    match s.takeBreak with
    | ([], _) => l.moveTo s
    | (_, s) =>
      let l := l.moveTo s
      skipBlanks steps (if l.flow = 0 then { l with keyAllowed := true } else l)

/-- A mark between documents or a directive: all blocks end. -/
def endBlocks (l : Layout) : Except Error Layout := do
  return { ← (l.unwindTo (-1)).dropKey with keyAllowed := false }

def openBracket (l : Layout) (t : Token) : Except Error Layout := do
  let l ← l.saveKey
  let l := { l with flow := l.flow + 1, keyAllowed := true }
  return (l.moveTo l.source.advance).push t

def closeBracket (l : Layout) (t : Token) : Except Error Layout := do
  let l ← l.dropKey
  if l.flow = 0 then throw .malformed
  let l := { l with flow := l.flow - 1, keyAllowed := false }
  return (l.moveTo l.source.advance).push t

def comma (l : Layout) : Except Error Layout := do
  let l ← dropKey { l with keyAllowed := true }
  return (l.moveTo l.source.advance).push .flowEntry

/-- With a block opened here if this column opens one. Nothing of the kind may stand where no key
may. -/
def openHere (l : Layout) (t : Token) : Except Error Layout :=
  if l.flow = 0 then
    if !l.keyAllowed then .error .malformed
    else if l.opensBlock l.source.column then .ok ((l.openBlock l.source.column).push t)
    else .ok l
  else .ok l

def item (l : Layout) : Except Error Layout := do
  let l ← l.openHere .blockSequence
  let l ← dropKey { l with keyAllowed := true }
  return (l.moveTo l.source.advance).push .blockEntry

def keyMark (l : Layout) : Except Error Layout := do
  let l ← l.openHere .blockMapping
  let l ← dropKey { l with keyAllowed := l.flow == 0 }
  return (l.moveTo l.source.advance).push .key

def valueMark (l : Layout) : Except Error Layout := do
  match l.keys.lookup l.flow with
  | some k =>
    let l := { l with keys := l.keys.filter fun p => p.1 != l.flow, keyAllowed := false }
    let l := l.insertAt k.position .key
    let l :=
      if l.flow = 0 ∧ l.opensBlock k.column = true then
        (l.openBlock k.column).insertAt k.position .blockMapping
      else l
    return (l.moveTo l.source.advance).push .value
  | none =>
    let l ← l.openHere .blockMapping
    let l ← dropKey { l with keyAllowed := l.flow == 0 }
    return (l.moveTo l.source.advance).push .value

def keyable (l : Layout) (scan : Scanner Token) : Except Error Layout := do
  let l ← l.saveKey
  let (t, s) ← scan l.source
  return (({ l with keyAllowed := false } : Layout).moveTo s).push t

def plain (l : Layout) : Except Error Layout := do
  let l ← l.saveKey
  let steps := l.source.rest.length + 1
  let (text, lineEnded, s) := scanPlain (l.flow != 0) (l.indent + 1) steps [] false l.source
  let l := { l with keyAllowed := lineEnded }
  return (l.moveTo s).push (.scalar (String.ofList text) true)

def block (l : Layout) : Except Error Layout := do
  let l ← dropKey { l with keyAllowed := true }
  let (t, s) ← scanBlock l.indent l.source
  return (l.moveTo s).push t

/-- Whether plain text can begin with a character, given the one after it. -/
def beginsPlain (inFlow : Bool) (c : Char) (next : Option Char) : Bool :=
  !(separates (some c) || "-?:,[]\x7b\x7d#&*!|>'\"%@\x60".toList.contains c) ||
    (!separates next && (c == '-' || (!inFlow && (c == '?' || c == ':'))))

def symbol (l : Layout) (c : Char) : Except Error Layout := do
  let s := l.source
  let inFlow := l.flow != 0
  let gapAfter := separates (s.peekAt? 1)
  if c == '%' && s.column == 0 then
    let l ← l.endBlocks
    let (t, s) ← scanDirective l.source
    return (l.moveTo s).push t
  else if s.column == 0 && s.atMark '-' then
    let l ← l.endBlocks
    return (l.moveTo (l.source.advanceBy 3)).push .documentStart
  else if s.column == 0 && s.atMark '.' then
    let l ← l.endBlocks
    return (l.moveTo (l.source.advanceBy 3)).push .documentEnd
  else if c == '[' then l.openBracket .flowSequence
  else if c == '\x7b' then l.openBracket .flowMapping
  else if c == ']' then l.closeBracket .flowSequenceEnd
  else if c == '\x7d' then l.closeBracket .flowMappingEnd
  else if c == ',' then l.comma
  else if c == '-' && gapAfter then l.item
  else if c == '?' && (inFlow || gapAfter) then l.keyMark
  else if c == ':' && (inFlow || gapAfter) then l.valueMark
  else if c == '*' then l.keyable fun s => do
    let (name, s) ← scanAnchor s
    return (.alias name, s)
  else if c == '&' then l.keyable fun s => do
    let (name, s) ← scanAnchor s
    return (.anchor name, s)
  else if c == '!' then l.keyable scanTag
  else if (c == '|' || c == '>') && !inFlow then l.block
  else if c == '\'' || c == '"' then l.keyable fun s => do
    let (text, s) ← scanQuoted c (s.rest.length + 1) s.advance
    return (.scalar (String.ofList text) false, s)
  else if beginsPlain inFlow c (s.peekAt? 1) then l.plain
  else throw .malformed

def next (l : Layout) : Except Error (Layout × Bool) := do
  let l := l.skipBlanks (l.source.rest.length + 1)
  let l ← l.dropStale
  let l := l.unwindTo l.source.column
  match l.source.peek? with
  | none => return (← (l.unwindTo (-1)).dropKey, false)
  | some c => return (← l.symbol c, true)

/-- All symbols. Every symbol takes at least one character. Where something cannot be read, a break
stands. -/
def run : (steps : Nat) → Layout → List Token
  | 0, l => (l.push (.broken .malformed)).tokens.reverse
  | steps + 1, l =>
    match l.next with
    | .ok (l, true) => run steps l
    | .ok (l, false) => l.tokens.reverse
    | .error e => (l.push (.broken e)).tokens.reverse

end Layout

def Token.ofText (text : List Char) : List Token :=
  if text.all isAllowed then (Layout.start text).run (text.length + 2) else [.broken .malformed]

end Colloquy.Yaml
