import Colloquy.Text.Numeral
import Colloquy.Yaml.Source

/-! The symbols of a data file: marks, and scalars with their text. -/

namespace Colloquy.Yaml

open Source

/-- A symbol of a data file. Starts and ends of blocks follow from indentation. The last symbol may be
a break, beyond which the file cannot be read. -/
inductive Token where
  | versionDirective (major : Nat)
  | tagDirective (handle start : String)
  | otherDirective
  | documentStart
  | documentEnd
  | blockSequence
  | blockMapping
  | blockEnd
  | flowSequence
  | flowSequenceEnd
  | flowMapping
  | flowMappingEnd
  | blockEntry
  | flowEntry
  | key
  | value
  | alias (name : String)
  | anchor (name : String)
  | tag (handle : Option String) (suffix : String)
  | scalar (text : String) (isPlain : Bool)
  | broken (why : Error)
deriving DecidableEq

abbrev Scanner (α : Type) := Source → Except Error (α × Source)

def isNameChar (c : Char) : Bool :=
  Text.isLatin c || Text.isPlainDigit c || c == '-' || c == '_'

def isTagChar (c : Char) : Bool :=
  Text.isLatin c || Text.isPlainDigit c || "-;/?:@&=+$,_.!~*'()[]".toList.contains c

def scanNumber : Scanner Nat := fun s =>
  match s.takeWhile Text.isPlainDigit with
  | ([], _) => .error .malformed
  | (digits, s) => .ok (Text.inBase 10 digits, s)

/-- The rest of a line that may hold nothing but spaces and a comment. -/
def scanLineEnd (s : Source) : Except Error Source :=
  let s := s.skipSpaces
  let s := if s.nextIs '#' then s.skipLine else s
  if endsLine s.peek? then .ok s.takeBreak.2 else .error .malformed

def scanEscapedBytes : (steps : Nat) → Source → Except Error (List Nat × Source)
  | 0, s => .ok ([], s)
  | steps + 1, s =>
    if s.nextIs '%' then do
      match s.peekAt? 1, s.peekAt? 2 with
      | some a, some b =>
        match Text.hexValue? a, Text.hexValue? b with
        | some m, some n =>
          let (bytes, s) ← scanEscapedBytes steps (s.advanceBy 3)
          return ((16 * m + n) :: bytes, s)
        | _, _ => throw .malformed
      | _, _ => throw .malformed
    else .ok ([], s)

def textOfBytes (bytes : List Nat) : Except Error (List Char) :=
  match String.fromUTF8? (ByteArray.mk (bytes.map (·.toUInt8)).toArray) with
  | some text => .ok text.toList
  | none => .error .malformed

def scanTagText : (steps : Nat) → Scanner (List Char)
  | 0, s => .ok ([], s)
  | steps + 1, s =>
    match s.peek? with
    | some c =>
      if c == '%' then do
        let (bytes, s) ← scanEscapedBytes (s.rest.length + 1) s
        let text ← textOfBytes bytes
        let (more, s) ← scanTagText steps s
        return (text ++ more, s)
      else if isTagChar c then do
        let (more, s) ← scanTagText steps s.advance
        return (c :: more, s)
      else .ok ([], s)
    | none => .ok ([], s)

def scanTagSuffix : Scanner String := fun s => do
  match ← scanTagText (s.rest.length + 1) s with
  | ([], _) => throw .malformed
  | (text, s) => return (String.ofList text, s)

/-- The handle of a tag: an exclamation mark, or a name between two. -/
def scanTagHandle : Scanner String := fun s =>
  if !s.nextIs '!' then .error .malformed
  else if s.peekAt? 1 == some ' ' then .ok ("!", s.advance)
  else
    let (name, t) := s.advance.takeWhile isNameChar
    if t.nextIs '!' then .ok (String.ofList ('!' :: name ++ ['!']), t.advance)
    else .error .malformed

def scanTag : Scanner Token := fun s => do
  let next := s.peekAt? 1
  let (token, s) ←
    if next == some '<' then do
      let (suffix, s) ← scanTagSuffix (s.advanceBy 2)
      if s.nextIs '>' then pure (Token.tag none suffix, s.advance) else throw .malformed
    else if separates next then pure (Token.tag none "!", s.advance)
    else do
      let word := s.advance.rest.takeWhile fun c => !endsWord (some c)
      let (handle, s) ← if word.contains '!' then scanTagHandle s else pure ("!", s.advance)
      let (suffix, s) ← scanTagSuffix s
      pure (Token.tag (some handle) suffix, s)
  if endsWord s.peek? then return (token, s) else throw .malformed

def scanAnchor : Scanner String := fun s =>
  match s.advance.takeWhile isNameChar with
  | ([], _) => .error .malformed
  | (name, s) =>
    if separates s.peek? || s.peek?.any fun c => "?:,]\x7d%@\x60".toList.contains c then
      .ok (String.ofList name, s)
    else .error .malformed

def scanDirective : Scanner Token := fun s => do
  match s.advance.takeWhile isNameChar with
  | ([], _) => throw .malformed
  | (name, s) =>
    if !endsWord s.peek? then throw .malformed
    let (token, s) ←
      if name == "YAML".toList then do
        let (major, s) ← scanNumber s.skipSpaces
        if !s.nextIs '.' then throw .malformed
        let (_, s) ← scanNumber s.advance
        if endsWord s.peek? then pure (Token.versionDirective major, s) else throw .malformed
      else if name == "TAG".toList then do
        let (handle, s) ← scanTagHandle s.skipSpaces
        if !s.nextIs ' ' then throw .malformed
        let (start, s) ← scanTagSuffix s.skipSpaces
        if endsWord s.peek? then pure (Token.tagDirective handle start, s) else throw .malformed
      else pure (Token.otherDirective, s.skipLine)
    return (token, ← scanLineEnd s)

def scanBreaks (blank : Char → Bool) : (steps : Nat) → Scanner (List Char)
  | 0, s => .ok ([], s)
  | steps + 1, s => do
    if s.atDocumentMark then throw .malformed
    let s := (s.takeWhile blank).2
    match s.takeBreak with
    | ([], _) => return ([], s)
    | (lineEnd, s) =>
      let (more, s) ← scanBreaks blank steps s
      return (lineEnd ++ more, s)

/-- What a single line end means between words: a space, unless more line ends follow. -/
def foldBreak (lineEnd breaks : List Char) : List Char :=
  if lineEnd ≠ ['\n'] then lineEnd ++ breaks
  else if breaks.isEmpty then [' ']
  else breaks

def escapes : List (Char × Char) := [
  ('0', '\x00'), ('a', '\x07'), ('b', '\x08'), ('t', '\t'), ('\t', '\t'), ('n', '\n'), ('v', '\x0b'),
  ('f', '\x0c'), ('r', '\r'), ('e', '\x1b'), (' ', ' '), ('"', '"'), ('\\', '\\'), ('/', '/'),
  ('N', '\u0085'), ('_', '\u00a0'), ('L', '\u2028'), ('P', '\u2029')]

/-- The number of a character, in as many digits of base sixteen as its letter asks for. -/
def scanCode (letter : Char) : Scanner Nat := fun s =>
  let count := if letter == 'x' then 2 else if letter == 'u' then 4 else 8
  let digits := (s.rest.take count).takeWhile Text.isHexDigit
  if digits.length < count then .error .malformed
  else
    let code := Text.inBase 16 digits
    if 0x7fffffff < code then .error (.breakdown .tooLarge)
    else if 0x10ffff < code then .error (.breakdown .badValue)
    else .ok (code, s.advanceBy count)

/-- The second half of a character that is given by its two units of sixteen bits. -/
def scanLowUnit? (s : Source) : Option (Nat × Source) :=
  match s.peek?, s.peekAt? 1 with
  | some '\\', some 'u' =>
    match scanCode 'u' (s.advanceBy 2) with
    | .ok (code, s) => if 0xdc00 ≤ code && code < 0xe000 then some (code - 0xdc00, s) else none
    | .error _ => none
  | _, _ => none

/-- What stands for half a character without its other half. -/
def replacement : Char := '\ufffd'

/-- A character given by its number, or by the numbers of its two units. -/
def scanCharacter (letter : Char) : Scanner (List Char) := fun s => do
  let (code, s) ← scanCode letter s
  if 0xd800 ≤ code && code < 0xdc00 then
    match scanLowUnit? s with
    | some (low, s) => return ([Char.ofNat (0x10000 + (code - 0xd800) * 0x400 + low)], s)
    | none => return ([replacement], s)
  else if 0xdc00 ≤ code && code < 0xe000 then return ([replacement], s)
  else return ([Char.ofNat code], s)

def scanEscape : Scanner (List Char) := fun s => do
  match s.peek? with
  | none => throw .malformed
  | some c =>
    match escapes.lookup c with
    | some d => return ([d], s.advance)
    | none =>
      if c == 'x' || c == 'u' || c == 'U' then scanCharacter c s.advance
      else if isBreak c then
        let s := s.takeBreak.2
        scanBreaks (fun c => c == ' ' || c == '\t') (s.rest.length + 1) s
      else throw .malformed

/-- Quoted text after its opening quote, up to and with the closing one. -/
def scanQuoted (quote : Char) : (steps : Nat) → Scanner (List Char)
  | 0, _ => .error .malformed
  | steps + 1, s => do
    match s.peek? with
    | none => throw .malformed
    | some c =>
      if c == quote then
        if quote == '\'' && s.peekAt? 1 == some '\'' then
          let (more, s) ← scanQuoted quote steps (s.advanceBy 2)
          return ('\'' :: more, s)
        else return ([], s.advance)
      else if c == '\\' && quote == '"' then
        let (text, s) ← scanEscape s.advance
        let (more, s) ← scanQuoted quote steps s
        return (text ++ more, s)
      else if separates (some c) then
        let (blanks, s) := s.takeWhile fun c => c == ' ' || c == '\t'
        match s.takeBreak with
        | ([], _) =>
          let (more, s) ← scanQuoted quote steps s
          return (blanks ++ more, s)
        | (lineEnd, s) =>
          let (breaks, s) ← scanBreaks (fun c => c == ' ' || c == '\t') (s.rest.length + 1) s
          let (more, s) ← scanQuoted quote steps s
          return (foldBreak lineEnd breaks ++ more, s)
      else
        let (more, s) ← scanQuoted quote steps s.advance
        return (c :: more, s)

/-- How the line ends after a block of text are kept: all, none, or one. -/
inductive Chomping where
  | keep
  | strip
  | clip

/-- The signs after the opening of a block of text: chomping and indentation, in either order. -/
def scanBlockSigns : Scanner (Chomping × Option Nat) := fun s => do
  let chomping? (s : Source) : Option Chomping × Source :=
    match s.peek? with
    | some '+' => (some .keep, s.advance)
    | some '-' => (some .strip, s.advance)
    | _ => (none, s)
  let indent? (s : Source) : Except Error (Option Nat × Source) :=
    match s.peek? with
    | some c =>
      if c == '0' then .error .malformed
      else if Text.isPlainDigit c then .ok (some (c.toNat - 48), s.advance)
      else .ok (none, s)
    | none => .ok (none, s)
  let (first, s) := chomping? s
  let (indent, s) ← indent? s
  let (second, s) := if first.isNone && indent.isSome then chomping? s else (none, s)
  if endsWord s.peek? then return (((first <|> second).getD .clip, indent), s)
  else throw .malformed

/-- The blank lines before a block of text, and the greatest indentation among the spaces there. -/
def scanIndentation : (steps : Nat) → (deepest : Nat) → Source → List Char × Nat × Source
  | 0, deepest, s => ([], deepest, s)
  | steps + 1, deepest, s =>
    if s.nextIs ' ' then
      let s := s.advance
      scanIndentation steps (max deepest s.column) s
    else
      match s.takeBreak with
      | ([], _) => ([], deepest, s)
      | (lineEnd, s) =>
        let (more, deepest, s) := scanIndentation steps deepest s
        (lineEnd ++ more, deepest, s)

def skipIndentation (indent : Nat) (s : Source) : Source :=
  s.advanceBy ((s.rest.take (indent - s.column)).takeWhile (· == ' ')).length

/-- Blank lines inside a block of text, and the indentation of the line after them. -/
def scanBlankLines (indent : Nat) : (steps : Nat) → Source → List Char × Source
  | 0, s => ([], s)
  | steps + 1, s =>
    let s := skipIndentation indent s
    match s.takeBreak with
    | ([], _) => ([], s)
    | (lineEnd, s) =>
      let (more, s) := scanBlankLines indent steps s
      (lineEnd ++ more, s)

/-- The lines of a block of text, given the blank lines before. The result is the text up to the end
of its last line, that line's end, and the blank lines after it. -/
def scanBlockLines (folded : Bool) (indent : Nat) :
    (steps : Nat) → (blankLines : List Char) → Source →
      List Char × List Char × List Char × Source
  | 0, blankLines, s => ([], [], blankLines, s)
  | steps + 1, blankLines, s =>
    if s.column ≠ indent ∨ s.rest.isEmpty then ([], [], blankLines, s)
    else
      let solid (s : Source) : Bool := !(s.peek?.any fun c => c == ' ' || c == '\t')
      let startsSolid := solid s
      let (line, s) := s.takeWhile fun c => !isBreak c
      let (lineEnd, s) := s.takeBreak
      let (next, s) := scanBlankLines indent (s.rest.length + 1) s
      if s.column = indent ∧ !s.rest.isEmpty then
        let joint :=
          if folded && lineEnd == ['\n'] && startsSolid && solid s then
            if next.isEmpty then [' '] else []
          else lineEnd
        let (more, last, after, s) := scanBlockLines folded indent steps next s
        (blankLines ++ line ++ joint ++ more, last, after, s)
      else (blankLines ++ line, lineEnd, next, s)

/-- A block of text from its opening sign on, inside blocks of an indentation. -/
def scanBlock (outer : Int) : Scanner Token := fun s => do
  let folded := s.nextIs '>'
  let ((chomping, given), s) ← scanBlockSigns s.advance
  let s ← scanLineEnd s
  let least := (max (outer + 1) 1).toNat
  let steps := s.rest.length + 1
  let (blankLines, indent, s) := match given with
    | some n =>
      let indent := least + n - 1
      let (blankLines, s) := scanBlankLines indent steps s
      (blankLines, indent, s)
    | none =>
      let (blankLines, deepest, s) := scanIndentation steps 0 s
      (blankLines, max least deepest, s)
  let (text, lineEnd, after, s) := scanBlockLines folded indent steps blankLines s
  let text := match chomping with
    | .keep => text ++ lineEnd ++ after
    | .strip => text
    | .clip => text ++ lineEnd
  return (.scalar (String.ofList text) false, s)

/-- Whether plain text ends before a character, given the one after it. -/
def endsPlain (inFlow : Bool) (c : Char) (next : Option Char) : Bool :=
  separates (some c) ||
    (c == ':' && (separates next || (inFlow && next.any fun d => ",[]\x7b\x7d".toList.contains d))) ||
    (inFlow && ",?[]\x7b\x7d".toList.contains c)

def plainWord (inFlow : Bool) : List Char → List Char
  | [] => []
  | c :: rest => if endsPlain inFlow c rest.head? then [] else c :: plainWord inFlow rest

/-- Line ends inside plain text and the spaces around them, unless a mark between documents follows
one. -/
def scanPlainBreaks : (steps : Nat) → Source → Option (List Char) × Source
  | 0, s => (some [], s)
  | steps + 1, s =>
    if s.atDocumentMark then (none, s)
    else
      let s := s.skipSpaces
      match s.takeBreak with
      | ([], _) => (some [], s)
      | (lineEnd, s) =>
        let (more, s) := scanPlainBreaks steps s
        (more.map (lineEnd ++ ·), s)

/-- What stands between words of plain text, nothing if the text ends there, and whether a line has
ended. -/
def scanPlainGap (s : Source) : List Char × Bool × Source :=
  let (blanks, s) := s.takeWhile (· == ' ')
  match s.takeBreak with
  | ([], _) => (blanks, false, s)
  | (lineEnd, s) =>
    match scanPlainBreaks (s.rest.length + 1) s with
    | (some breaks, s) => (foldBreak lineEnd breaks, true, s)
    | (none, s) => ([], true, s)

/-- Plain text inside blocks of an indentation: its characters, whether a line has ended after its
last word, and the place after it. `gap` is what stands before the next word. -/
def scanPlain (inFlow : Bool) (indent : Int) :
    (steps : Nat) → (gap : List Char) → (lineEnded : Bool) → Source → List Char × Bool × Source
  | 0, _, lineEnded, s => ([], lineEnded, s)
  | steps + 1, gap, lineEnded, s =>
    if s.nextIs '#' then ([], lineEnded, s)
    else
      match plainWord inFlow s.rest with
      | [] => ([], lineEnded, s)
      | word =>
        let (next, ended, s) := scanPlainGap (s.advanceBy word.length)
        if next.isEmpty || s.nextIs '#' || (!inFlow && (s.column : Int) < indent) then
          (gap ++ word, ended, s)
        else
          let (more, ended, s) := scanPlain inFlow indent steps next ended s
          (gap ++ word ++ more, ended, s)

end Colloquy.Yaml
