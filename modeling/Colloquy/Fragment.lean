import Colloquy.Text.Case
import Colloquy.Text.Spacing

/-! Input as a list of fragments. Symbols become spaces; dashes between blanks, punctuation and the
word "but" break the input; what is left between breaks is a fragment. -/

namespace Colloquy.Fragment

open Text

def symbols : List Char := "@#$%^&*()_+=~\x60\x7b[\x7d]|:<>/\\\t\r\n\x0c\x0b".toList

def blankSymbol (c : Char) : Char := if symbols.contains c then ' ' else c

/-- What a break looks for: blanks, the marks that may break, and everything else. -/
inductive Kind where
  | blank
  | mark
  | other
deriving DecidableEq

def kindBy (isMark : Char → Bool) (c : Char) : Kind :=
  if isMark c then .mark else if isBlank c then .blank else .other

def breakMark : Char := '.'

/-- Dashes with blanks on both sides become a break. -/
def breakDashes : List (Run Kind) → List Char
  | a :: b :: c :: rest =>
    if a.kind = .blank ∧ b.kind = .mark ∧ c.kind = .blank then breakMark :: breakDashes rest
    else a.chars ++ breakDashes (b :: c :: rest)
  | rs => unruns rs

/-- Breaking runs become one break each, and blanks next to one go with it. `broken` tells whether a
break has just been made. -/
def breakRuns (breaks : Run Kind → Bool) : (broken : Bool) → List (Run Kind) → List Char
  | _, [] => []
  | broken, r :: rest =>
    if breaks r then breakMark :: breakRuns breaks true rest
    else if r.kind = .blank && (broken || rest.head?.any breaks) then breakRuns breaks false rest
    else r.chars ++ breakRuns breaks false rest

def isStop (c : Char) : Bool := c == ',' || c == '.' || c == '?' || c == '!' || c == ';'

def conjunction : List Char := ['b', 'u', 't']

/-- The input with a break mark at every break, and narrow gaps. -/
def normalize (text : List Char) : List Char :=
  let text := (lower text).map blankSymbol
  let text := breakDashes (runs (kindBy (· == '-')) text)
  let text := breakRuns (·.kind = .mark) false (runs (kindBy isStop) text)
  let text := breakRuns (fun r => r.kind = .mark && r.chars == conjunction) false
    (runs (kindBy isWord) text)
  collapse text

def parts (text : List Char) : List (List Char) :=
  ((runs (· == breakMark) text).filter fun r => !r.kind).map Run.chars

def split (text : String) : List String :=
  (parts (normalize text.toList)).map String.ofList

end Colloquy.Fragment
