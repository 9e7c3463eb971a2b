import Colloquy.Regex.Reading
import Colloquy.Text.Naming

/-! Reading regular expressions from text. -/

namespace Colloquy.Regex

open Text

/-- Skips a comment after its opening, up to and with the closing parenthesis. -/
def skipComment (start : Nat) : (steps : Nat) → Reader Unit
  | 0 => failAt .openComment start
  | steps + 1 => do
    match ← take? with
    | none => failAt .openComment start
    | some t => if t = .plain ')' then return else skipComment start steps

def skipLine : (steps : Nat) → Reader Unit
  | 0 => return
  | steps + 1 => do
    match ← take? with
    | none => return
    | some t => if t = .plain '\n' then return else skipLine steps

def readGroupName (closer : Char) : Reader String := do
  let name ← takeName closer ((← get).rest.length + 1) []
  if isName name.toList then return name
  else failAt (.badName name) ((← here) - (name.length + 1))

/-- The group of a name, for the place just after the name and its closing character. -/
def groupNamed (name : String) : Reader Nat := do
  match (← get).names.lookup name with
  | some index => return index
  | none => failAt (.unknownName name) ((← here) - (name.length + 1))

def readNamedReference : Reader Regex := do
  let name ← readGroupName ')'
  let index ← groupNamed name
  if !(← isClosed index) then failAt .groupStillOpen ((← here) - (name.length + 1))
  checkBehind index
  return .back index (← get).flags.ignoreCase

/-- The group that a condition asks for, given by name or number up to the closing parenthesis. -/
def readCondition : Reader Nat := do
  let written ← takeName ')' ((← get).rest.length + 1) []
  let start := (← here) - (written.length + 1)
  let index ← if isName written.toList then groupNamed written
    else
      match integer? written.toList with
      | some (.ofNat n) =>
        if n = 0 then failAt .zeroGroup start
        else
          modify fun s => { s with conditions := s.conditions ++ [(n, start)] }
          pure n
      | _ => failAt (.badName written) start
  checkBehind index
  return index

/-- What the opening of a group announces. -/
inductive Opening where
  | part (r : Regex)
  | nothing
  | capture (name : Option String)
  | plain
  | scoped (on off : List Char)
  | atomic
  | look (behind negated : Bool)
  | condition (index : Nat)

/-- The opening of a group after its parenthesis, which stands at `start`. `leading` tells whether
flags for the whole expression may stand here. -/
def readOpening (start : Nat) (leading : Bool) : Reader Opening := do
  if !(← takeIf '?') then return .capture none
  match ← take? with
  | none => fail .endsEarly
  | some t =>
    match t with
    | .plain 'P' =>
      if ← takeIf '<' then return .capture (some (← readGroupName '>'))
      else if ← takeIf '=' then return .part (← readNamedReference)
      else
        match ← take? with
        | none => fail .endsEarly
        | some u =>
          failAt (.unknownExtension (String.ofList ('P' :: u.chars))) ((← here) - (u.width + 2))
    | .plain ':' => return .plain
    | .plain '#' =>
      skipComment start ((← get).rest.length + 1)
      return .nothing
    | .plain '=' => return .look false false
    | .plain '!' => return .look false true
    | .plain '<' =>
      match ← take? with
      | none => fail .endsEarly
      | some u =>
        if u = .plain '=' then return .look true false
        else if u = .plain '!' then return .look true true
        else
          failAt (.unknownExtension (String.ofList ('<' :: u.chars))) ((← here) - (u.width + 2))
    | .plain '(' => return .condition (← readCondition)
    | .plain '>' => return .atomic
    | .plain c =>
      if isFlag c || c == '-' then
        match ← readFlags c with
        | .whole on =>
          modify fun s => { s with flags := on.reverse.foldl (Flags.put true) s.flags }
          if !leading then failAt .lateFlags start
          return .nothing
        | .inside on off => return .scoped on off
      else failAt (.unknownExtension (String.ofList [c])) ((← here) - 2)
    | _ => failAt (.unknownExtension (String.ofList t.chars)) ((← here) - (t.width + 1))

def openGroup (name : Option String) : Reader Nat := do
  let s ← get
  match name with
  | none => set { s with groups := s.groups + 1 }
  | some name =>
    match s.names.lookup name with
    | some earlier =>
      failAt (.repeatedName name s.groups earlier) (s.place - (name.length + 1))
    | none => set { s with groups := s.groups + 1, names := s.names ++ [(name, s.groups)] }
  return s.groups

/-- The greatest number of groups that may stand inside one another. -/
def nestingLimit : Nat := 480

def deeper {α : Type} (step : Reader α) : Reader α := do
  if nestingLimit ≤ (← get).depth then throw .tooDeep
  modify fun s => { s with depth := s.depth + 1 }
  let a ← step
  modify fun s => { s with depth := s.depth - 1 }
  return a

def closeGroup (start : Nat) : Reader Unit := do
  if !(← takeIf ')') then failAt .openGroup start

def withFlags {α : Type} (change : Flags → Flags) (step : Reader α) : Reader α := do
  let flags := (← get).flags
  modify fun s => { s with flags := change s.flags }
  let a ← step
  modify fun s => { s with flags }
  return a

/-- A look at the text around, given what is looked for. Looking back needs an exact width. -/
def lookPart (behind negated : Bool) (body : Regex) : Reader Regex := do
  if !behind then return .look none negated body
  match (body.width (← get).widths).fixed? with
  | some n => return .look (some n) negated body
  | none =>
    modify fun s => { s with loose := true }
    return .never

mutual

/-- Alternatives up to the end or a closing parenthesis. -/
def readBranches : (steps : Nat) → (leading : Bool) → Reader Regex
  | 0, _ => fail .endsEarly
  | steps + 1, leading => do
    let first ← readSequence steps leading []
    if ← takeIf '|' then
      return .alt first (← readBranches steps false)
    else return first

/-- Parts that follow each other, up to the end, a closing parenthesis or the next alternative.
`parts` holds those before, last first. -/
def readSequence : (steps : Nat) → (leading : Bool) → (parts : List Part) → Reader Regex
  | 0, _, _ => fail .endsEarly
  | steps + 1, leading, parts => do
    let start ← here
    let s ← get
    match s.rest with
    | [] | .plain '|' :: _ | .plain ')' :: _ => return sequence parts.reverse
    | t :: _ =>
      discard take?
      match t with
      | .escaped c => readSequence steps leading ((← readEscape c start) :: parts)
      | .lone => fail .loneBackslash
      | .plain c =>
        if s.flags.verbose && (c == ' ' || (9 ≤ c.toNat && c.toNat ≤ 13)) then
          readSequence steps leading parts
        else if s.flags.verbose && c == '#' then
          skipLine s.rest.length
          readSequence steps leading parts
        else
          match c with
          | '(' =>
            match ← readGroup steps leading start parts with
            | none => readSequence steps leading parts
            | some r => readSequence steps leading (.item r :: parts)
          | '[' =>
            let test ← readSet start
            readSequence steps leading (.item (.one test) :: parts)
          | '.' =>
            let test : CharTest := if s.flags.dotAll then .any else .notNewline
            readSequence steps leading (.item (.one test) :: parts)
          | '^' =>
            let a : Anchor := if s.flags.multiLine then .lineStart else .textStart
            readSequence steps leading (.place a :: parts)
          | '$' =>
            let a : Anchor := if s.flags.multiLine then .lineEnd else .lastLineEnd
            readSequence steps leading (.place a :: parts)
          | '?' => readSequence steps leading (← readRepetition start 0 (some 1) parts)
          | '*' => readSequence steps leading (← readRepetition start 0 none parts)
          | '+' => readSequence steps leading (← readRepetition start 1 none parts)
          | '\x7b' =>
            match ← readRange with
            | some (least, most) =>
              readSequence steps leading (← readRepetition start least most parts)
            | none =>
              let literal := Regex.one (.one c.toNat s.flags.ignoreCase)
              readSequence steps leading (.item literal :: parts)
          | _ =>
            let literal := Regex.one (.one c.toNat s.flags.ignoreCase)
            readSequence steps leading (.item literal :: parts)

/-- A group after its parenthesis, which stands at `start`, unless it means nothing by itself. -/
def readGroup : (steps : Nat) → (leading : Bool) → (start : Nat) → (parts : List Part) →
    Reader (Option Regex)
  | 0, _, _, _ => fail .endsEarly
  | steps + 1, leading, start, parts => do
    match ← readOpening start (leading && parts.isEmpty) with
    | .part r => return some r
    | .nothing => return none
    | .capture name =>
      let index ← openGroup name
      let body ← readInside steps start
      modify fun s => { s with widths := (index, body.width s.widths) :: s.widths }
      return some (.group index body)
    | .plain => return some (← readInside steps start)
    | .scoped on off =>
      let change (flags : Flags) : Flags :=
        off.reverse.foldl (Flags.put false) (on.reverse.foldl (Flags.put true) flags)
      return some (← withFlags change (readInside steps start))
    | .atomic => return some (.atomic (← readInside steps start))
    | .look behind negated =>
      let outer := (← get).behindFrom
      if behind && outer.isNone then
        modify fun s => { s with behindFrom := some s.groups }
      let body ← deeper (readBranches steps false)
      if behind then modify fun s => { s with behindFrom := outer }
      closeGroup start
      return some (← lookPart behind negated body)
    | .condition index =>
      let present ← readSequence steps false []
      let absent ← if ← takeIf '|' then readSequence steps false [] else pure .empty
      if ← nextIs '|' then fail .thirdBranch
      closeGroup start
      return some (.ifGroup index present absent)

/-- The alternatives inside a group opened at `start`, and its closing parenthesis. -/
def readInside : (steps : Nat) → (start : Nat) → Reader Regex
  | 0, start => failAt .openGroup start
  | steps + 1, start => do
    let body ← deeper (readBranches steps false)
    closeGroup start
    return body

end

def readWhole (steps : Nat) : Reader Regex := do
  refuseLone
  let body ← readBranches steps true
  let s ← get
  if !s.rest.isEmpty then fail .closedTooOften
  for (index, place) in s.conditions do
    if s.groups ≤ index then failAt (.noSuchGroup index) place
  if s.loose then throw (.fault .looseLookBehind none)
  return body

/-- A regular expression with the number of its groups and their names. -/
structure Expression where
  source : String
  body : Regex
  groups : Nat
  names : List (String × Nat)
deriving DecidableEq

/-- The regular expression that a text is, with or without regard to case. Every step of reading
takes a symbol or closes one of the openings that were taken. -/
def Expression.parse (source : String) (ignoreCase : Bool) : Except Error Expression := do
  let tokens := Token.scan source.toList
  let start : Reading :=
    { rest := tokens, place := 0, groups := 1, names := [], widths := [], behindFrom := none
      flags := { Flags.none with ignoreCase }, conditions := [], loose := false, depth := 0 }
  let (body, s) ← (readWhole (4 * tokens.length + 4)).run start
  return { source, body, groups := s.groups - 1, names := s.names }

end Colloquy.Regex
