import Colloquy.Regex.Parse

/-! Matching by trying alternatives in order and going back. -/

namespace Colloquy.Regex

open Text

/-- A part of a text, from one place to another, given by what stands after each. -/
structure Span where
  start : List Char
  stop : List Char
deriving DecidableEq

def Span.text (s : Span) : List Char := s.start.take (s.start.length - s.stop.length)

/-- How far a match has got: the place, and the texts that groups have captured, latest first. -/
structure Progress where
  place : Cursor
  captures : List (Nat × Span)
deriving DecidableEq

namespace Progress

def captured? (p : Progress) (index : Nat) : Option (List Char) :=
  (p.captures.lookup index).map Span.text

/-- With a group's text captured, from a place given by what stands after it up to here. -/
def capture (p : Progress) (index : Nat) (start : List Char) : Progress :=
  { p with captures := (index, ⟨start, p.place.after⟩) :: p.captures }

def samePlace (p : Progress) (after : List Char) : Bool := p.place.after.length == after.length

end Progress

/-- The rest of a match, which may succeed or not. -/
abbrev Next := Progress → Option Progress

def runFrom (test : CharTest) (k : List Char → List Char → Option Progress) :
    (least : Nat) → (most : Option Nat) → (before after : List Char) → Option Progress
  | least, _, before, [] => if least = 0 then k before [] else none
  | least, most, before, c :: after =>
    if most ≠ some 0 ∧ test.accepts c = true then
      match runFrom test k (least - 1) (most.map (· - 1)) (c :: before) after with
      | some result => some result
      | none => if least = 0 then k before (c :: after) else none
    else if least = 0 then k before (c :: after) else none

/-- A repetition. Beyond the least number, a round is tried only at a place where none began just
before. `last` is what stands after that place. -/
def loopFrom (greed : Greed) (round : Next → Next) (k : Next) :
    (steps : Nat) → (least : Nat) → (most : Option Nat) → (last : Option (List Char)) → Next
  | 0, least, _, _, p => if least = 0 then k p else none
  | steps + 1, least, most, last, p =>
    if 0 < least then
      match greed with
      | .possessive => (round some p).bind
          (loopFrom greed round k steps (least - 1) (most.map (· - 1)) none)
      | _ => round (loopFrom greed round k steps (least - 1) (most.map (· - 1)) none) p
    else if most = some 0 ∨ last.any p.samePlace = true then k p
    else
      let more := loopFrom greed round k steps 0 (most.map (· - 1)) (some p.place.after)
      match greed with
      | .greedy =>
        match round more p with
        | some result => some result
        | none => k p
      | .lazy =>
        match k p with
        | some result => some result
        | none => round more p
      | .possessive =>
        match round some p with
        | some q => if q.samePlace p.place.after then k q else more q
        | none => k p

def sameText (foldCase : Bool) (a b : List Char) : Bool :=
  if foldCase then a.map lowerOne == b.map lowerOne else a == b

/-- Matches an expression from a place on, and then the rest. -/
def matchThen : Regex → Next → Next
  | .empty, k, p => k p
  | .never, _, _ => none
  | .one test, k, p =>
    match p.place with
    | ⟨_, []⟩ => none
    | ⟨before, c :: after⟩ =>
      if test.accepts c then k { p with place := ⟨c :: before, after⟩ } else none
  | .seq a b, k, p => matchThen a (fun q => matchThen b k q) p
  | .alt a b, k, p =>
    match matchThen a k p with
    | some result => some result
    | none => matchThen b k p
  | .run test least most, k, p =>
    runFrom test (fun before after => k { p with place := ⟨before, after⟩ }) least most
      p.place.before p.place.after
  | .loop greed least most body, k, p =>
    loopFrom greed (fun next q => matchThen body next q) k (least + p.place.after.length + 2)
      least most none p
  | .group index body, k, p => matchThen body (fun q => k (q.capture index p.place.after)) p
  | .back index foldCase, k, p =>
    match p.captured? index with
    | none => none
    | some text =>
      match p.place.forward? text.length with
      | none => none
      | some place =>
        if sameText foldCase text (p.place.after.take text.length) then k { p with place }
        else none
  | .ifGroup index present absent, k, p =>
    if (p.captured? index).isSome then matchThen present k p else matchThen absent k p
  | .look behind negated body, k, p =>
    match p.place.back? (behind.getD 0) with
    | none => if negated then k p else none
    | some place =>
      match matchThen body some { p with place } with
      | some q => if negated then none else k { q with place := p.place }
      | none => if negated then k p else none
  | .anchor a, k, p => if a.holds p.place then k p else none
  | .atomic body, k, p => (matchThen body some p).bind k

/-- A match: where it begins, and how far it got. -/
structure Match where
  start : Cursor
  final : Progress
deriving DecidableEq

namespace Match

def text (m : Match) : List Char := (Span.mk m.start.after m.final.place.after).text

def group? (m : Match) : Nat → Option (List Char)
  | 0 => some m.text
  | index => m.final.captured? index

end Match

/-- A match that begins at a place, which has to match some text if `nonempty` is set. -/
def matchAt? (r : Regex) (nonempty : Bool) (place : Cursor) : Option Match :=
  let accept (p : Progress) : Option Progress :=
    if nonempty && p.samePlace place.after then none else some p
  (matchThen r accept ⟨place, []⟩).map (Match.mk place)

/-- The first match that begins at a place or after it, the two sides of the place being given. -/
def searchFrom? (r : Regex) (before : List Char) : List Char → Option Match
  | [] => r.matchAt? false ⟨before, []⟩
  | c :: after =>
    match r.matchAt? false ⟨before, c :: after⟩ with
    | some m => some m
    | none => searchFrom? r (c :: before) after

def search? (r : Regex) (text : List Char) : Option Match := searchFrom? r [] text

def matchStart? (r : Regex) (text : List Char) : Option Match :=
  r.matchAt? false (.start text)

def replaceAll (r : Regex) (render : Match → List Char) (text : List Char) : List Char :=
  Cursor.replaceAll
    (fun nonempty place => (r.matchAt? nonempty place).map fun m => (render m, m.final.place)) text

end Colloquy.Regex
