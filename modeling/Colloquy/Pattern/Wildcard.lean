import Colloquy.Text.Character
import Colloquy.Text.Run

/-! Decomposition patterns. An asterisk captures any text, a reference such as `@family` stands for a
group of equivalent words, a blank stands for any gap, and a leading dollar sign marks replies that
are kept for later. Everything else is a regular expression, which is what patterns become. -/

namespace Colloquy.Pattern

open Text

/-- The expression that captures any text, without the blanks before it. -/
def capture : List Char := "\\s*(.*)\\s*".toList

def edge : List Char := "\\b".toList

def gap : List Char := "\\s+".toList

/-- A character that is not blank, with the blanks before it. -/
structure Mark where
  gap : List Char
  char : Char
deriving DecidableEq

/-- The marks of a text and the blanks after the last one. -/
def marks : List Char → List Mark × List Char
  | [] => ([], [])
  | c :: rest =>
    if isBlank c then
      match marks rest with
      | ([], tail) => ([], c :: tail)
      | (m :: more, tail) => (⟨c :: m.gap, m.char⟩ :: more, tail)
    else
      let (more, tail) := marks rest
      (⟨[], c⟩ :: more, tail)

def Mark.text (m : Mark) : List Char := m.gap ++ [m.char]

/-- What replaces an asterisk and the gaps around it, given the characters on both sides. No word
edge stands next to a parenthesis of a group or an escape. -/
def between (left right : Char) : List Char :=
  (if left = ')' then [] else edge) ++ capture ++
    if right = '(' ∨ right = '\\' then [] else edge

def Mark.textFrom (bare : Bool) (m : Mark) : List Char := if bare then [m.char] else m.text

/-- Asterisks that stand between two other characters become captures. `bare` tells whether the
blanks before the first mark are gone already. -/
def expandInner : (bare : Bool) → List Mark → List Char
  | _, [] => []
  | bare, [a] => a.textFrom bare
  | bare, [a, b] => a.textFrom bare ++ b.text
  | bare, a :: b :: c :: rest =>
    if b.char = '*' then
      a.textFrom bare ++ between a.char c.char ++ expandInner true (c :: rest)
    else a.textFrom bare ++ expandInner false (b :: c :: rest)

def expandFirst (text : List Char) : List Char :=
  match text.dropWhile isBlank with
  | '*' :: rest =>
    match rest.dropWhile isBlank with
    | [] => text
    | c :: more => capture ++ (if c = ')' ∨ c = '\\' then [] else edge) ++ c :: more
  | _ => text

def expandLast (text : List Char) : List Char :=
  match text.reverse.dropWhile isBlank with
  | '*' :: rest =>
    match rest.dropWhile isBlank with
    | [] => text
    | c :: before => (c :: before).reverse ++ (if c = '(' then [] else edge) ++ capture
  | _ => text

/-- A pattern with its asterisks made captures. -/
def expand (pattern : List Char) : List Char :=
  let (ms, tail) := marks pattern
  if ms.map Mark.char = ['*'] then capture
  else expandLast (expandFirst (expandInner false ms ++ tail))

def expandWildcards (pattern : String) : String := String.ofList (expand pattern.toList)

end Colloquy.Pattern
