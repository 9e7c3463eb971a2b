import Colloquy.Failure

/-! The text of a data file while it is read, with line and column of the current place. -/

namespace Colloquy.Yaml

/-- Why a data file cannot be read: it is not well-formed, or a value in it stops the work. -/
inductive Error where
  | malformed
  | breakdown (b : Breakdown)
deriving DecidableEq

def isBreak (c : Char) : Bool :=
  c == '\n' || c == '\u0085' || c == '\u2028' || c == '\u2029'

def isAllowed (c : Char) : Bool :=
  let n := c.toNat
  n == 9 || n == 10 || n == 13 || (0x20 ≤ n && n ≤ 0x7e) || n == 0x85 ||
    (0xa0 ≤ n && n ≤ 0xd7ff) || (0xe000 ≤ n && n ≤ 0xfffd) || 0x10000 ≤ n

/-- What is left of a text, the number of characters before it, and line and column of its start,
both counted from zero. -/
structure Source where
  rest : List Char
  index : Nat
  line : Nat
  column : Nat

namespace Source

/-- The start of a text. A byte order mark there is passed over. -/
def start (text : List Char) : Source :=
  match text with
  | '\ufeff' :: rest => ⟨rest, 1, 0, 0⟩
  | _ => ⟨text, 0, 0, 0⟩

def advance (s : Source) : Source :=
  match s.rest with
  | [] => s
  | c :: rest =>
    if isBreak c then ⟨rest, s.index + 1, s.line + 1, 0⟩
    else ⟨rest, s.index + 1, s.line, if c == '\ufeff' then s.column else s.column + 1⟩

def advanceBy (s : Source) : Nat → Source
  | 0 => s
  | n + 1 => s.advance.advanceBy n

def peek? (s : Source) : Option Char := s.rest.head?

def peekAt? (s : Source) (n : Nat) : Option Char := s.rest[n]?

def nextIs (s : Source) (c : Char) : Bool := s.peek? == some c

def endsLine (c : Option Char) : Bool := c.all isBreak

/-- Whether a character ends a word: a space, the end of a line, or the end of the text. -/
def endsWord (c : Option Char) : Bool := c.all fun c => c == ' ' || isBreak c

/-- Whether a character separates: a space, a tab, the end of a line, or the end of the text. -/
def separates (c : Option Char) : Bool := c.all fun c => c == ' ' || c == '\t' || isBreak c

def takeWhile (s : Source) (p : Char → Bool) : List Char × Source :=
  let taken := s.rest.takeWhile p
  (taken, s.advanceBy taken.length)

def skipSpaces (s : Source) : Source := (s.takeWhile (· == ' ')).2

def skipLine (s : Source) : Source := (s.takeWhile fun c => !isBreak c).2

/-- The end of a line as it counts in values, and the place after it. -/
def takeBreak (s : Source) : List Char × Source :=
  match s.peek? with
  | some c =>
    if c == '\n' || c == '\u0085' then (['\n'], s.advance)
    else if isBreak c then ([c], s.advance)
    else ([], s)
  | none => ([], s)

def atMark (s : Source) (c : Char) : Bool :=
  [c, c, c].isPrefixOf s.rest && separates (s.peekAt? 3)

def atDocumentMark (s : Source) : Bool := s.atMark '-' || s.atMark '.'

end Source
end Colloquy.Yaml
