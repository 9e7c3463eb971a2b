import Colloquy.Text.Run
import Colloquy.Yaml.Scalar

/-! Scalars as they are written into data files: plain where that reads back as the same text,
between single quotes where it holds nothing special, else between double quotes. Long texts are
broken at spaces. -/

namespace Colloquy.Yaml

/-- Text that is being written, last character first, with the current column. `spaced` tells
whether nothing needs to be written to keep the next mark apart, `fresh` whether the line holds
nothing but marks of blocks. -/
structure Page where
  written : List Char
  column : Nat
  spaced : Bool
  fresh : Bool

namespace Page

def blank : Page := ⟨[], 0, true, true⟩

def width : Nat := 80

def write (p : Page) (text : List Char) : Page :=
  { p with written := text.reverse ++ p.written, column := p.column + text.length }

def endLine (p : Page) : Page := ⟨'\n' :: p.written, 0, true, true⟩

/-- At an indentation, on a new line unless there is nothing on this one. -/
def indentTo (p : Page) (indent : Nat) : Page :=
  let p := if !p.fresh || indent < p.column || (p.column == indent && !p.spaced) then p.endLine else p
  if p.column < indent then
    { p.write (List.replicate (indent - p.column) ' ') with spaced := true }
  else p

/-- With a mark written, kept apart from what is before it if `apart` says so. -/
def mark (p : Page) (text : List Char) (apart : Bool) (spaced fresh : Bool) : Page :=
  let p := p.write (if p.spaced || !apart then text else ' ' :: text)
  { p with spaced, fresh := p.fresh && fresh }

def settled (p : Page) : Page := { p with spaced := false, fresh := false }

end Page

namespace Scalar

/-- What matters about a text for how it may be written. -/
structure Shape where
  empty : Bool
  multiline : Bool
  allowsPlain : Bool
  allowsSingle : Bool

def isSpecial (c : Char) : Bool := !(c == '\n' || (32 ≤ c.toNat && c.toNat ≤ 126))

def isGap (c : Option Char) : Bool := Source.separates c || c == some '\r' || c == some '\x00'

/-- Whether a character is a mark where it stands, given its neighbours. -/
def isMark (before : Option Char) (c : Char) (after : Option Char) : Bool :=
  if before.isNone then
    "#,[]\x7b\x7d&*!|>'\"%@\x60".toList.contains c || ((c == '?' || c == ':' || c == '-') && isGap after)
  else (c == ':' && isGap after) || (c == '#' && isGap before)

def hasMark (before : Option Char) : List Char → Bool
  | [] => false
  | c :: rest => isMark before c rest.head? || hasMark (some c) rest

/-- Whether one character stands directly before another somewhere in a text. -/
def hasPair (a b : Char) : List Char → Bool
  | [] => false
  | [_] => false
  | c :: d :: rest => (c == a && d == b) || hasPair a b (d :: rest)

def shapeOf (text : List Char) : Shape :=
  let special := text.any isSpecial
  let multiline := text.any isBreak
  let isEdge (c : Option Char) : Bool := c == some ' ' || c == some '\n'
  let awkward := special || hasPair ' ' '\n' text || hasPair '\n' ' ' text
  { empty := text.isEmpty
    multiline
    allowsPlain := !awkward && !multiline && !isEdge text.head? && !isEdge text.getLast? &&
      !hasMark none text && !"---".toList.isPrefixOf text && !"...".toList.isPrefixOf text
    allowsSingle := !awkward }

/-- The ways to write a scalar. -/
inductive Style where
  | plain
  | single
  | double
deriving DecidableEq

/-- The style of a text. `readsBack` tells whether it would be read back as the same value without
quotes, `isKey` whether it is a key on one line with its value. -/
def styleOf (readsBack isKey : Bool) (text : List Char) : Style :=
  let s := shapeOf text
  if readsBack && s.allowsPlain && !(isKey && (s.empty || s.multiline)) then .plain
  else if s.allowsSingle && !(isKey && s.multiline) then .single
  else .double

/-- Writes a gap of spaces, or breaks the line if it is a single one beyond the width. -/
def writeGap (indent : Nat) (split : Bool) (p : Page) (gap : List Char) : Page :=
  if gap.length == 1 && Page.width < p.column && split then p.indentTo indent else p.write gap

def writePlain (indent : Nat) (split : Bool) (text : List Char) (p : Page) : Page :=
  if text.isEmpty then p
  else
    let p := (if p.spaced then p else p.write [' ']).settled
    (Text.runs (· == ' ') text).foldl
      (fun p r => if r.kind then (writeGap indent split p r.chars).settled else p.write r.chars) p

/-- The parts of text between single quotes. -/
inductive Part where
  | gap
  | lines
  | quote
  | other
deriving DecidableEq

def partOf (c : Char) : Part :=
  if c = ' ' then .gap else if c = '\n' then .lines else if c = '\'' then .quote else .other

/-- Writes the runs of text between single quotes. A gap at either end is never broken. A line end
takes one more than it means. -/
def writeSingleRuns (indent : Nat) (split : Bool) : (first : Bool) → List (Text.Run Part) → Page → Page
  | _, [], p => p
  | first, r :: rest, p =>
    let p := match r.kind with
      | .gap => writeGap indent (split && !first && !rest.isEmpty) p r.chars
      | .lines => (r.chars.foldl (fun p _ => p.endLine) p.endLine).indentTo indent
      | .quote => p.write (r.chars ++ r.chars)
      | .other => p.write r.chars
    writeSingleRuns indent split false rest p

def writeSingle (indent : Nat) (split : Bool) (text : List Char) (p : Page) : Page :=
  let p := p.mark ['\''] true false false
  (writeSingleRuns indent split true (Text.runs partOf text) p).mark ['\''] false false false

/-- The escapes of control characters and of the two marks of quoted text. -/
def escapeLetters : List (Char × Char) := [
  ('\x00', '0'), ('\x07', 'a'), ('\x08', 'b'), ('\t', 't'), ('\n', 'n'), ('\x0b', 'v'), ('\x0c', 'f'),
  ('\r', 'r'), ('\x1b', 'e'), ('"', '"'), ('\\', '\\'), ('\u0085', 'N'), ('\u00a0', '_'),
  ('\u2028', 'L'), ('\u2029', 'P')]

/-- The last `width` digits of a number in base sixteen, with capitals. -/
def hexCapitals (width n : Nat) : List Char := (Text.hex width n).map Text.capitalOne

/-- A character that cannot be written as it is between double quotes. -/
def escapeOf (c : Char) : List Char :=
  match escapeLetters.lookup c with
  | some letter => ['\\', letter]
  | none =>
    let n := c.toNat
    if n ≤ 0xff then '\\' :: 'x' :: hexCapitals 2 n
    else if n ≤ 0xffff then '\\' :: 'u' :: hexCapitals 4 n
    else '\\' :: 'U' :: hexCapitals 8 n

def isEscaped (c : Char) : Bool := c == '"' || c == '\\' || !(32 ≤ c.toNat && c.toNat ≤ 126)

/-- Breaks the line after some text, so that the break does not count. A space that begins the new
line is escaped. -/
def breakDouble (indent : Nat) (text : List Char) (next : Option Char) (p : Page) : Page :=
  let p := ((p.write (text ++ ['\\'])).indentTo indent).settled
  if next == some ' ' then p.write ['\\'] else p

/-- Writes text between double quotes, from the character at an index on. `pending` holds what has
been passed over but not yet written, last first. -/
def writeDoubleFrom (indent : Nat) (split : Bool) (length : Nat) :
    (index : Nat) → (pending : List Char) → List Char → Page → Page
  | _, pending, [], p => p.write pending.reverse
  | index, pending, c :: rest, p =>
    let inside := split && 0 < index && index + 1 < length
    if isEscaped c then
      let p := (p.write pending.reverse).write (escapeOf c)
      let p := if inside && Page.width + 1 < p.column then breakDouble indent [] rest.head? p else p
      writeDoubleFrom indent split length (index + 1) [] rest p
    else if inside && (c == ' ' || pending.isEmpty) && Page.width < p.column + pending.length then
      let p := breakDouble indent pending.reverse (some c) p
      writeDoubleFrom indent split length (index + 1) [c] rest p
    else writeDoubleFrom indent split length (index + 1) (c :: pending) rest p

def writeDouble (indent : Nat) (split : Bool) (text : List Char) (p : Page) : Page :=
  let p := p.mark ['"'] true false false
  (writeDoubleFrom indent split text.length 0 [] text p).mark ['"'] false false false

def writeText (readsBack isKey : Bool) (indent : Nat) (text : List Char) (p : Page) : Page :=
  match styleOf readsBack isKey text with
  | .plain => writePlain indent (!isKey) text p
  | .single => writeSingle indent (!isKey) text p
  | .double => writeDouble indent (!isKey) text p

end Scalar
end Colloquy.Yaml
