import Colloquy.Double.Shortest
import Colloquy.Text.Base64
import Colloquy.Yaml.Outline
import Colloquy.Yaml.Page

/-! Writing data in blocks. The items of a list are not indented inside a map. Bytes are written in base
sixty-four, on lines of their own. -/

namespace Colloquy.Yaml

/-- The text of a number with a point, in a form that reads back as one. -/
def floatText (x : Double) : List Char :=
  match x with
  | .nan => ".nan".toList
  | .infinite negative => if negative then "-.inf".toList else ".inf".toList
  | _ =>
    let text := x.text.toList
    if text.contains '.' then text
    else text.flatMap fun c => if c = 'e' then ".0e".toList else [c]

/-- The text of a scalar, and the name of its kind as it counts for the length of keys. -/
def scalarText : Data → Option (List Char × Nat)
  | .null => some ("null".toList, 6)
  | .bool b => some ((if b then "true" else "false").toList, 6)
  | .int i => some ((toString i).toList, 5)
  | .float x => some (floatText x, 7)
  | .text s => some (s.toList, 5)
  | .stamp s => some (s.text.toList, 11)
  | .bytes bs => some (Text.Base64.encodeLines bs, 8)
  | _ => none

/-- Whether a scalar is read back as itself without quotes. Only texts can fail that. -/
def readsBack : Data → Bool
  | .text s => Scalar.tagOf s.toList == .text
  | _ => true

def nameText (n : Nat) : List Char := "id".toList ++ (Stamp.padded 3 n).toList

/-- The longest text of a key, with its name and kind, that stands on one line with its value. -/
def keyLimit : Nat := 127

/-- Whether a node can stand as a key on one line with its value. -/
def Outline.isShortKey : Outline → Bool
  | .reference _ => true
  | .scalar heading value =>
    match scalarText value with
    | some (text, kind) =>
      heading.name.elim 0 (fun n => (nameText n).length) + kind + text.length ≤ keyLimit &&
        !text.isEmpty && !text.any isBreak
    | none => false
  | _ => false

def Heading.print (heading : Heading) (p : Page) : Page :=
  let p := heading.name.elim p fun n => p.mark ('&' :: nameText n) true false false
  heading.kind.elim p fun kind => p.mark kind.toList true false false

def printLiteral (indent : Nat) (text : List Char) (p : Page) : Page :=
  let lines := (Text.runs (· == '\n') text).filter fun r => !r.kind
  lines.foldl (fun p r => ((p.indentTo indent).write r.chars).endLine)
    (p.mark ['|'] true false false).endLine

def printScalar (isKey : Bool) (indent : Nat) (value : Data) (p : Page) : Page :=
  match value, (scalarText value).elim [] (·.1) with
  | .bytes _, [] => Scalar.writeDouble indent false [] p
  | .bytes _, text => printLiteral (indent + 2) text p
  | value, text => Scalar.writeText (readsBack value) isKey (indent + 2) text p

/-- Where a node stands: as an item of a sequence, as a key on one line with its value, or elsewhere in
a mapping. -/
inductive Place where
  | item
  | shortKey
  | entry
deriving DecidableEq

namespace Outline

mutual

def print (place : Place) (indent : Nat) : Outline → Page → Page
  | .reference name, p => p.mark ('*' :: nameText name) true false false
  | .scalar heading value, p => printScalar (place = .shortKey) indent value (heading.print p)
  | .sequence heading [], p =>
    ((heading.print p).mark ['['] true true false).mark [']'] false false false
  | .sequence heading (item :: rest), p =>
    let p := heading.print p
    let indent := if place ≠ .item && !p.fresh then indent else indent + 2
    printItems indent (item :: rest) p
  | .mapping heading [], p =>
    ((heading.print p).mark ['\x7b'] true true false).mark ['\x7d'] false false false
  | .mapping heading (entry :: rest), p => printEntries (indent + 2) (entry :: rest) (heading.print p)

def printItems (indent : Nat) : List Outline → Page → Page
  | [], p => p
  | item :: rest, p =>
    printItems indent rest (item.print .item indent ((p.indentTo indent).mark ['-'] true false true))

def printEntries (indent : Nat) : List (Outline × Outline) → Page → Page
  | [], p => p
  | (key, value) :: rest, p =>
    let p := p.indentTo indent
    let p :=
      if key.isShortKey then (key.print .shortKey indent p).mark [':'] false false false
      else
        let p := key.print .entry indent (p.mark ['?'] true false true)
        (p.indentTo indent).mark [':'] true false true
    printEntries indent rest (value.print .entry indent p)

end

end Outline

def write? (entries : List (Data × Data)) : Option (List Char) :=
  match Outline.entriesOf entries with
  | [] => some "\x7b\x7d\n".toList
  | outlines =>
    if Outline.areShowableEntries outlines then
      some ((Outline.printEntries 0 outlines .blank).indentTo 0).written.reverse
    else none

end Colloquy.Yaml
