import Colloquy.Regex.Fold

/-! Regular expressions with captures, references to captures, and looking around. -/

namespace Colloquy

open Text

namespace Regex

/-- Classes of characters that have a short name. -/
inductive CharClass where
  | digit
  | blank
  | word
deriving DecidableEq

/-- Whether a character belongs to a class; `ascii` keeps to ASCII. -/
def CharClass.has (ascii : Bool) (k : CharClass) (c : Char) : Bool :=
  if ascii && 128 ≤ c.toNat then false
  else
    match k with
    | .digit => isDigit c
    | .blank => isBlank c && !(ascii && 28 ≤ c.toNat && c.toNat ≤ 31)
    | .word => isWord c

/-- A member of a set of characters. Characters are given by code point. -/
inductive SetItem where
  | one (code : Nat)
  | range (first last : Nat)
  | named (k : CharClass) (ascii negated : Bool)
deriving DecidableEq

/-- Whether a character belongs to a member of a set, with or without regard to case. -/
def SetItem.has (foldCase : Bool) (c : Char) : SetItem → Bool
  | .one code => if foldCase then sameLetter code c else c.toNat == code
  | .range first last =>
    if foldCase then inFoldedRange first last c else first ≤ c.toNat && c.toNat ≤ last
  | .named k ascii negated => k.has ascii c != negated

/-- A test on one character. -/
inductive CharTest where
  | any
  | notNewline
  | one (code : Nat) (foldCase : Bool)
  | set (negated : Bool) (items : List SetItem) (foldCase : Bool)
deriving DecidableEq

def CharTest.accepts (t : CharTest) (c : Char) : Bool :=
  match t with
  | .any => true
  | .notNewline => c != '\n'
  | .one code foldCase => (SetItem.one code).has foldCase c
  | .set negated items foldCase => items.any (SetItem.has foldCase c) != negated

/-- A condition on a place. -/
inductive Anchor where
  | textStart
  | lineStart
  | textEnd
  | lastLineEnd
  | lineEnd
  | edge (ascii : Bool)
  | noEdge (ascii : Bool)
deriving DecidableEq

/-- Whether a place meets a condition. An empty text has neither an edge nor a place without one. -/
def Anchor.holds (a : Anchor) (c : Cursor) : Bool :=
  match a with
  | .textStart => c.before.isEmpty
  | .lineStart => c.before.isEmpty || c.before.head? == some '\n'
  | .textEnd => c.after.isEmpty
  | .lastLineEnd => c.after.isEmpty || c.after == ['\n']
  | .lineEnd => c.after.isEmpty || c.after.head? == some '\n'
  | .edge ascii => c.atEdgeOf (CharClass.word.has ascii)
  | .noEdge ascii =>
    !(c.before.isEmpty && c.after.isEmpty) && !c.atEdgeOf (CharClass.word.has ascii)

/-- Which number of repetitions is tried first; a possessive repetition takes as many as it can get
and never gives one back. -/
inductive Greed where
  | greedy
  | lazy
  | possessive
deriving DecidableEq

end Regex

/-- A regular expression. `run` is a greedy repetition of one character's test; `loop` repeats
anything. `look` tests what stands after a place, or a given number of characters before it. -/
inductive Regex where
  | empty
  | never
  | one (test : Regex.CharTest)
  | seq (first second : Regex)
  | alt (first second : Regex)
  | run (test : Regex.CharTest) (least : Nat) (most : Option Nat)
  | loop (greed : Regex.Greed) (least : Nat) (most : Option Nat) (body : Regex)
  | group (index : Nat) (body : Regex)
  | back (index : Nat) (foldCase : Bool)
  | ifGroup (index : Nat) (present absent : Regex)
  | look (behind : Option Nat) (negated : Bool) (body : Regex)
  | anchor (a : Regex.Anchor)
  | atomic (body : Regex)
deriving DecidableEq

end Colloquy
