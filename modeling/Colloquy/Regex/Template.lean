import Colloquy.Regex.Match

/-! What matches are replaced by: text with references to groups, and escapes. -/

namespace Colloquy.Regex

open Text

/-- Why a replacement cannot be used: it is not well-formed, or it names a group that there is not. -/
inductive TemplateError where
  | malformed
  | unknownName
deriving DecidableEq

namespace Template

/-- A part of a replacement. -/
inductive Piece where
  | char (c : Char)
  | group (index : Nat)
deriving DecidableEq

def groupPiece (e : Expression) (index : Nat) : Except TemplateError Piece :=
  if index ≤ e.groups then .ok (.group index) else .error .malformed

def charPiece (code : Nat) : Piece := .char (Char.ofNat code)

/-- The symbols up to a closing angle bracket, as text, and what follows the bracket. -/
def takeName : List Token → Option (List Char × List Token)
  | [] => none
  | .plain '>' :: rest => some ([], rest)
  | t :: rest => (takeName rest).map fun p => (t.chars ++ p.1, p.2)

/-- The group that a name or a number between angle brackets refers to. -/
def namedPiece (e : Expression) (name : List Char) (rest : List Token) :
    Except TemplateError Piece :=
  if rest = [.lone] then .error .malformed
  else if isName name then
    match e.names.lookup (String.ofList name) with
    | some index => .ok (.group index)
    | none => .error .unknownName
  else
    match integer? name with
    | some (.ofNat n) => groupPiece e n
    | _ => .error .malformed

def plainIn (p : Char → Bool) : Token → Bool
  | .plain c => p c
  | _ => false

/-- The characters of the leading symbols that belong to a class, at most `n`. -/
def leading (p : Char → Bool) (n : Nat) (ts : List Token) : List Char :=
  ((ts.take n).takeWhile (plainIn p)).flatMap Token.chars

/-- The digits of an escape that begins with a digit, and what it stands for: up to three octal
digits for a character if there are as many or the first is zero, else a group. -/
def numberPiece (e : Expression) (c : Char) (rest : List Token) :
    Nat × Except TemplateError Piece :=
  if c = '0' then
    let more := leading isOctalDigit 2 rest
    (more.length, .ok (charPiece (inBase 8 more % 256)))
  else
    let octal := leading isOctalDigit 2 rest
    if isOctalDigit c ∧ octal.length = 2 then
      let code := inBase 8 (c :: octal)
      (2, if code ≤ 0o377 then .ok (charPiece code) else .error .malformed)
    else
      let more := leading isPlainDigit 1 rest
      (more.length, groupPiece e (inBase 10 (c :: more)))

/-- The pieces of a replacement for the matches of an expression. -/
def parseTokens (e : Expression) : (steps : Nat) → List Token → Except TemplateError (List Piece)
  | _, [] => .ok []
  | 0, _ => .error .malformed
  | steps + 1, t :: rest =>
    match t with
    | .lone => .error .malformed
    | .plain c => do return .char c :: (← parseTokens e steps rest)
    | .escaped 'g' =>
      match rest with
      | .plain '<' :: more =>
        match takeName more with
        | none => .error .malformed
        | some (name, after) => do
          let piece ← namedPiece e name after
          return piece :: (← parseTokens e steps after)
      | _ => .error .malformed
    | .escaped c =>
      if isPlainDigit c then do
        let (count, piece) := numberPiece e c rest
        let piece ← piece
        return piece :: (← parseTokens e steps (rest.drop count))
      else
        match controlEscape? c with
        | some code => do return charPiece code :: (← parseTokens e steps rest)
        | none =>
          if isLatin c then .error .malformed
          else do return .char '\\' :: .char c :: (← parseTokens e steps rest)

def parse (e : Expression) (replacement : String) : Except TemplateError (List Piece) :=
  let tokens := Token.scan replacement.toList
  parseTokens e tokens.length tokens

/-- The text of a piece for a match; a group that took no part is empty. -/
def Piece.render (m : Match) : Piece → List Char
  | .char c => [c]
  | .group index => (m.group? index).getD []

end Template

/-- A text with every match replaced as a written replacement says. -/
def Expression.replace (e : Expression) (replacement : String) (text : List Char) :
    Except TemplateError (List Char) := do
  let pieces ← Template.parse e replacement
  return e.body.replaceAll (fun m => pieces.flatMap (·.render m)) text

end Colloquy.Regex
