import Colloquy.Text.Integer
import Colloquy.Text.Numeral
import Colloquy.Regex.Error
import Colloquy.Regex.Token
import Colloquy.Regex.Width

/-! The state of reading a regular expression, and the steps that need no recursion: symbols, names,
escapes, sets, counts and flags. -/

namespace Colloquy.Regex

open Text

/-- How the expressions that follow are meant. -/
structure Flags where
  ignoreCase : Bool
  multiLine : Bool
  dotAll : Bool
  ascii : Bool
  verbose : Bool
deriving DecidableEq

def Flags.none : Flags := ⟨false, false, false, false, false⟩

/-- A flag letter set or taken back. The letter for the usual classes takes back the one for ASCII. -/
def Flags.put (value : Bool) (flags : Flags) (letter : Char) : Flags :=
  match letter with
  | 'i' => { flags with ignoreCase := value }
  | 'm' => { flags with multiLine := value }
  | 's' => { flags with dotAll := value }
  | 'x' => { flags with verbose := value }
  | 'a' => { flags with ascii := value }
  | 'u' => { flags with ascii := false }
  | _ => flags

/-- The state of reading: what is left and where it starts, the groups so far, the flags, and what
is checked at the end. `groups` is the number that the next group gets, `depth` that of the groups
around. -/
structure Reading where
  rest : List Token
  place : Nat
  groups : Nat
  names : List (String × Nat)
  widths : List (Nat × Width)
  behindFrom : Option Nat
  flags : Flags
  conditions : List (Nat × Nat)
  loose : Bool
  depth : Nat

abbrev Reader := StateT Reading (Except Error)

def here : Reader Nat := do return (← get).place

def failAt {α : Type} (f : Fault) (place : Nat) : Reader α := throw (.fault f (some place))

def fail {α : Type} (f : Fault) : Reader α := do failAt f (← here)

def peek? : Reader (Option Token) := do return (← get).rest.head?

def nextIs (c : Char) : Reader Bool := do return (← peek?) == some (.plain c)

def refuseLone : Reader Unit := do
  if (← peek?) == some .lone then fail .loneBackslash

def take? : Reader (Option Token) := do
  let s ← get
  match s.rest with
  | [] => return none
  | t :: rest =>
    set { s with rest, place := s.place + t.width }
    refuseLone
    return some t

def takeIf (c : Char) : Reader Bool := do
  if ← nextIs c then
    discard take?
    return true
  else
    return false

def takeWhile (p : Char → Bool) : (n : Nat) → Reader (List Char)
  | 0 => return []
  | n + 1 => do
    match ← peek? with
    | some (.plain c) =>
      if p c then
        discard take?
        return c :: (← takeWhile p n)
      else return []
    | _ => return []

/-- Takes the characters of a name up to a closing character, and that too. -/
def takeName (closer : Char) : (steps : Nat) → (taken : List Char) → Reader String
  | 0, _ => fail .missingName
  | steps + 1, taken => do
    match ← take? with
    | none =>
      if taken.isEmpty then fail .missingName
      else failAt (.openName closer) ((← here) - taken.length)
    | some t =>
      if t = .plain closer then
        if taken.isEmpty then failAt .missingName ((← here) - 1)
        else return String.ofList taken
      else takeName closer steps (taken ++ t.chars)

/-- The code points of the escapes for control characters, and of the backslash. -/
def controlEscape? : Char → Option Nat
  | 'a' => some 7
  | 'b' => some 8
  | 'f' => some 12
  | 'n' => some 10
  | 'r' => some 13
  | 't' => some 9
  | 'v' => some 11
  | '\\' => some 92
  | _ => none

/-- The classes that an escape can name, and whether it means the other characters. -/
def classEscape? : Char → Option (CharClass × Bool)
  | 'd' => some (.digit, false)
  | 'D' => some (.digit, true)
  | 's' => some (.blank, false)
  | 'S' => some (.blank, true)
  | 'w' => some (.word, false)
  | 'W' => some (.word, true)
  | _ => none

def anchorEscape? (ascii : Bool) : Char → Option Anchor
  | 'A' => some .textStart
  | 'Z' => some .textEnd
  | 'b' => some (.edge ascii)
  | 'B' => some (.noEdge ascii)
  | _ => none

/-- The code point after `\x`, `\u` or `\U`, which takes a fixed number of digits. -/
def readCode (letter : Char) (count start : Nat) : Reader Nat := do
  let digits ← takeWhile isHexDigit count
  let written := String.ofList ('\\' :: letter :: digits)
  if digits.length < count then failAt (.shortEscape written) start
  let code := inBase 16 digits
  if 0x10ffff < code then failAt (.badEscape written) start
  return code

/-- The code point of an escape that is neither a class nor a control character nor a digit. -/
def readLetterEscape (c : Char) (start : Nat) : Reader Nat := do
  match c with
  | 'x' => readCode c 2 start
  | 'u' => readCode c 4 start
  | 'U' => readCode c 8 start
  | _ =>
    if isLatin c then failAt (.badEscape (String.ofList ['\\', c])) start
    else return c.toNat

def octalCode (digits : List Char) (start : Nat) : Reader Nat := do
  let code := inBase 8 digits
  if 0o377 < code then failAt (.largeOctal (String.ofList ('\\' :: digits))) start
  return code

def readSetEscape (c : Char) (start : Nat) : Reader SetItem := do
  let flags := (← get).flags
  match controlEscape? c, classEscape? c with
  | some code, _ => return .one code
  | _, some (k, negated) => return .named k flags.ascii negated
  | none, none =>
    if isOctalDigit c then
      return .one (← octalCode (c :: (← takeWhile isOctalDigit 2)) start)
    else if isPlainDigit c then failAt (.badEscape (String.ofList ['\\', c])) start
    else return .one (← readLetterEscape c start)

def readSetItem (t : Token) (start : Nat) : Reader SetItem :=
  match t with
  | .escaped c => readSetEscape c start
  | .plain c => return .one c.toNat
  | .lone => fail .loneBackslash

/-- The members of a set after its opening, up to and with the closing bracket. A bracket or a
hyphen that could not mean anything else stands for itself. -/
def readSetItems (start : Nat) : (steps : Nat) → (items : List SetItem) → Reader (List SetItem)
  | 0, _ => failAt .openSet start
  | steps + 1, items => do
    let at₁ ← here
    match ← take? with
    | none => failAt .openSet start
    | some first =>
      if first = .plain ']' ∧ items ≠ [] then return items
      let item ← readSetItem first at₁
      if ← takeIf '-' then
        let at₂ ← here
        match ← take? with
        | none => failAt .openSet start
        | some last =>
          if last = .plain ']' then return items ++ [item, .one '-'.toNat]
          let other ← readSetItem last at₂
          let bad : Fault :=
            .badRange (String.ofList first.chars) (String.ofList last.chars)
          let badAt := (← here) - (first.width + 1 + last.width)
          match item, other with
          | .one low, .one high =>
            if high < low then failAt bad badAt
            readSetItems start steps (items ++ [.range low high])
          | _, _ => failAt bad badAt
      else readSetItems start steps (items ++ [item])

def readSet (start : Nat) : Reader CharTest := do
  let negated ← takeIf '^'
  let s ← get
  let items ← readSetItems start (s.rest.length + 1) []
  return .set negated items s.flags.ignoreCase

def isClosed (index : Nat) : Reader Bool := do return ((← get).widths.lookup index).isSome

/-- Fails unless a group may be referred to inside the look-behind that is being read, if any. -/
def checkBehind (index : Nat) : Reader Unit := do
  match (← get).behindFrom with
  | none => return
  | some first =>
    if !(← isClosed index) then fail .groupStillOpen
    if first ≤ index then fail .groupOfSameLookBehind

def readNumberEscape (c : Char) (start : Nat) : Reader Regex := do
  let flags := (← get).flags
  let literal (code : Nat) : Regex := .one (.one code flags.ignoreCase)
  if c = '0' then
    return literal (inBase 8 (← takeWhile isOctalDigit 2))
  let more ← takeWhile isPlainDigit 1
  if isOctalDigit c ∧ more.any isOctalDigit then
    match ← takeWhile isOctalDigit 1 with
    | [] => reference flags (c :: more)
    | last => return literal (← octalCode (c :: more ++ last) start)
  else reference flags (c :: more)
where
  reference (flags : Flags) (digits : List Char) : Reader Regex := do
    let index := inBase 10 digits
    if index < (← get).groups then
      if !(← isClosed index) then failAt .groupStillOpen start
      checkBehind index
      return .back index flags.ignoreCase
    else failAt (.noSuchGroup index) (start + 1)

/-- A part of a sequence. A place cannot be repeated, nor can a repetition. -/
inductive Part where
  | item (r : Regex)
  | place (a : Anchor)
  | repeated (r : Regex)

def Part.regex : Part → Regex
  | .item r | .repeated r => r
  | .place a => .anchor a

def sequence : List Part → Regex
  | [] => .empty
  | [p] => p.regex
  | p :: rest => .seq p.regex (sequence rest)

def readEscape (c : Char) (start : Nat) : Reader Part := do
  let flags := (← get).flags
  match classEscape? c, anchorEscape? flags.ascii c, controlEscape? c with
  | some (k, negated), _, _ =>
    return .item (.one (.set false [.named k flags.ascii negated] false))
  | _, some a, _ => return .place a
  | _, _, some code => return .item (.one (.one code flags.ignoreCase))
  | _, _, _ =>
    if isPlainDigit c then return .item (← readNumberEscape c start)
    else return .item (.one (.one (← readLetterEscape c start) flags.ignoreCase))

/-- Counts from here on are too large. -/
def countLimit : Nat := 4294967295

def readCount (digits : List Char) : Reader (Option Nat) := do
  if digits.isEmpty then return none
  if digitLimit < digits.length then throw .countTooLong
  let n := inBase 10 digits
  if countLimit ≤ n then throw .countTooLarge
  return some n

/-- The range of a repetition after its opening brace. What does not have the form of a range is
left unread. -/
def readRange : Reader (Option (Nat × Option Nat)) := do
  let s ← get
  if ← nextIs '\x7d' then return none
  let low ← takeWhile isPlainDigit s.rest.length
  let high ← if ← takeIf ',' then takeWhile isPlainDigit s.rest.length else pure low
  if ← takeIf '\x7d' then
    let least ← readCount low
    let most ← readCount high
    if most.any (· < least.getD 0) then failAt .emptyRange s.place
    return some (least.getD 0, most)
  else
    set s
    return none

def repeated (greed : Greed) (least : Nat) (most : Option Nat) (body : Regex) : Regex :=
  match greed, body with
  | .greedy, .one test => .run test least most
  | _, _ => .loop greed least most body

def readGreed : Reader Greed := do
  if ← takeIf '?' then return .lazy
  if ← takeIf '+' then return .possessive
  return .greedy

def readRepetition (start least : Nat) (most : Option Nat) (parts : List Part) :
    Reader (List Part) := do
  match parts with
  | .item r :: before =>
    let greed ← readGreed
    return .repeated (repeated greed least most r) :: before
  | .repeated _ :: _ => failAt .repeatedTwice start
  | _ => failAt .nothingToRepeat start

def isFlag (c : Char) : Bool := "iLmsxau".toList.contains c

/-- Fails with one fault on letters and another on all else, at the symbol just taken. -/
def failFlag {α : Type} (t : Token) (otherwise : Fault) : Reader α := do
  let place := (← here) - t.width
  match t with
  | .plain c => failAt (if isWord c && !isDigit c && c != '_' then .unknownFlag else otherwise) place
  | _ => failAt otherwise place

/-- Flags to set, from the first letter on, and the symbol that ends them. -/
def readFlagsOn : (steps : Nat) → (letter : Char) → (on : List Char) → Reader (List Char × Char)
  | 0, _, _ => fail .openFlags
  | steps + 1, letter, on => do
    if letter = 'L' then fail .localeFlag
    let on := letter :: on
    if on.contains 'a' ∧ on.contains 'u' ∧ (letter = 'a' ∨ letter = 'u') then fail .clashingFlags
    match ← take? with
    | none => fail .openFlags
    | some t =>
      match t with
      | .plain c =>
        if c = ')' ∨ c = '-' ∨ c = ':' then return (on, c)
        else if isFlag c then readFlagsOn steps c on
        else failFlag t .openFlags
      | _ => failFlag t .openFlags

/-- Flags to take back, from the first letter on, up to and with the colon. -/
def readFlagsOff : (steps : Nat) → (letter : Char) → (off : List Char) → Reader (List Char)
  | 0, _, _ => fail .openFlagsOff
  | steps + 1, letter, off => do
    if letter = 'a' ∨ letter = 'u' ∨ letter = 'L' then fail .fixedFlagOff
    let off := letter :: off
    match ← take? with
    | none => fail .openFlagsOff
    | some t =>
      match t with
      | .plain c =>
        if c = ':' then return off
        else if isFlag c then readFlagsOff steps c off
        else failFlag t .openFlagsOff
      | _ => failFlag t .openFlagsOff

/-- What flags in a group are for: the whole expression, or the group. -/
inductive FlagScope where
  | whole (on : List Char)
  | inside (on off : List Char)

/-- Flags in a group, from the first symbol on, which is a letter or a minus sign. -/
def readFlags (first : Char) : Reader FlagScope := do
  let steps := (← get).rest.length + 1
  let (on, ender) ← if first = '-' then pure ([], '-') else readFlagsOn steps first []
  if ender = ')' then return .whole on
  if ender = ':' then return .inside on []
  match ← take? with
  | none => fail .missingFlag
  | some t =>
    match t with
    | .plain c =>
      if isFlag c then
        let off ← readFlagsOff steps c []
        if on.any off.contains then failAt .flagOnAndOff ((← here) - 1)
        return .inside on off
      else failFlag t .missingFlag
    | _ => failFlag t .missingFlag

end Colloquy.Regex
