import Colloquy.Proofs.Pattern.Expansion

/-! Patterns as they are written: words, references and asterisks, with blanks between them. -/

namespace Colloquy.Pattern

open Text

/-- A symbol of a pattern: a word, a reference to the synonyms of a word, or an asterisk. -/
inductive Symbol where
  | word (w : Word)
  | reference (w : Word)
  | wild

def Symbol.text : Symbol → List Char
  | .word w => w.text
  | .reference w => '@' :: w.text
  | .wild => ['*']

def blankText (blanks : List Blank) : List Char := blanks.map Subtype.val

/-- Whether a symbol may stand after another with such blanks between them. They may be left out
between a word and an asterisk and after an asterisk. Asterisks do not stand next to each other. -/
def MayFollow (s : Symbol) (blanks : List Blank) (t : Symbol) : Prop :=
  match s, t with
  | .wild, .wild => False
  | .wild, _ | .word _, .wild => True
  | _, _ => blanks ≠ []

/-- Whether symbols, each with the blanks before it, may follow one after the other. -/
def Chained : Symbol → List (List Blank × Symbol) → Prop
  | _, [] => True
  | s, (blanks, t) :: rest => MayFollow s blanks t ∧ Chained t rest

/-- Symbols as they stand in a pattern, each but the first with the blanks before it. -/
structure Layout where
  first : Symbol
  more : List (List Blank × Symbol)
  chained : Chained first more

def Layout.symbols (l : Layout) : List Symbol := l.first :: l.more.map Prod.snd

def trail (write : Symbol → List Char) (more : List (List Blank × Symbol)) : List Char :=
  more.flatMap fun m => blankText m.1 ++ write m.2

def Layout.text (l : Layout) : List Char := l.first.text ++ trail Symbol.text l.more

/-- A pattern with a dollar sign and as many spaces before it, or without. -/
def withMark : Option Nat → List Char → List Char
  | none, text => text
  | some spaces, text => '$' :: (List.replicate spaces ' ' ++ text)

/-! What patterns become. -/

/-- A bit of an expression: a piece, or a group of words. -/
inductive Bit where
  | piece (p : Piece)
  | group (words : List String)

def Bit.text : Bit → List Char
  | .piece p => p.text
  | .group words => '(' :: (['|'].intercalate (words.map String.toList) ++ [')'])

def bitText (bits : List Bit) : List Char := bits.flatMap Bit.text

variable (synonyms : List Synonym)

def Symbol.isKnown : Symbol → Bool
  | .reference w => synonyms.any (·.word == String.ofList w.text)
  | _ => false

def Symbol.captures : Symbol → Bool
  | .wild => true
  | s => s.isKnown synonyms

def Word.bits (w : Word) : List Bit := w.pieces.map .piece

def Symbol.bits : Symbol → List Bit
  | .word w => w.bits
  | .reference w =>
    match synonyms.find? (·.word == String.ofList w.text) with
    | some s => [.group (s.word :: s.equivalents)]
    | none => w.bits
  | .wild => [.piece .capture]

/-- What joins two symbols. `opened` tells whether there is a symbol before them, and `ongoing` whether
there is one after them: an asterisk has a word edge on either side, but not next to a group if it has
symbols on both sides. -/
def seam (opened : Bool) (s t : Symbol) (ongoing : Bool) : List Bit :=
  match s, t with
  | .wild, t => if opened && t.isKnown synonyms then [] else [.piece .edge]
  | s, .wild => if ongoing && s.isKnown synonyms then [] else [.piece .edge]
  | _, _ => [.piece .gap]

def bitsFrom (opened : Bool) (s : Symbol) : List (List Blank × Symbol) → List Bit
  | [] => s.bits synonyms
  | (_, t) :: rest => s.bits synonyms ++
      (seam synonyms opened s t (!rest.isEmpty) ++ bitsFrom true t rest)

def Layout.bits (l : Layout) : List Bit := bitsFrom synonyms false l.first l.more

end Colloquy.Pattern
