import Colloquy.Failure
import Colloquy.Regex.Template
import Colloquy.Script.Basic
import Colloquy.Text.Spacing

/-! The last touches to a reply: spacing, retouchings, and a capital at the start. -/

namespace Colloquy

open Text

/-- A retouching with its expression read. -/
structure Retouch where
  expression : Regex.Expression
  replacement : String
deriving DecidableEq

namespace Retouch

/-- The digits of a reference to a numbered group after a backslash. -/
def digitsAt? (rest : List Char) : Option (List Char) :=
  match rest.takeWhile isDigit with
  | [] =>
    match rest with
    | 'g' :: '<' :: more =>
      match more.takeWhile isDigit, more.dropWhile isDigit with
      | [], _ => none
      | digits, '>' :: _ => some digits
      | _, _ => none
    | _ => none
  | digits => some digits

/-- The digits of all references to numbered groups in a replacement. A backslash that is itself
escaped counts as one too. -/
def references : List Char → List (List Char)
  | [] => []
  | c :: rest =>
    if c = '\\' then (digitsAt? rest).toList ++ references rest else references rest

/-- Fails unless every group that is referred to exists. -/
def checkReferences (r : Script.Retouch) (groups : Nat) : List (List Char) → Except Failure Unit
  | [] => .ok ()
  | digits :: rest =>
    match natural? digits with
    | none => .error (.breakdown .badValue)
    | some group =>
      if groups < group then .error (.rules (.missingGroup r.pattern r.replacement group))
      else checkReferences r groups rest

def ofRegexError (report : String → RuleProblem) (source : String) : Regex.Error → Failure
  | .fault f place => .rules (report (Regex.describe source.toList f place))
  | .countTooLarge => .breakdown .tooLarge
  | .countTooLong => .breakdown .badValue
  | .tooDeep => .breakdown .tooDeep

def compile (r : Script.Retouch) : Except Failure Retouch :=
  match Regex.Expression.parse r.pattern false with
  | .error e => .error (ofRegexError (.badTransform · r.pattern) r.pattern e)
  | .ok e => do
    checkReferences r e.groups (references r.replacement.toList)
    return ⟨e, r.replacement⟩

/-- A text retouched. A replacement that is not well-formed shows here. -/
def apply (r : Retouch) (text : List Char) : Except Breakdown (List Char) :=
  match r.expression.replace r.replacement text with
  | .ok text => .ok text
  | .error .malformed => .error .badTemplate
  | .error .unknownName => .error .outOfRange

/-- A text with a capital at its start if a small ASCII letter stands there. -/
def capitalize : List Char → List Char
  | [] => []
  | c :: rest => capitalOne c :: rest

/-- A reply with its last touches: spacing, then the retouchings in order, then the capital. -/
def polishChars (retouches : List Retouch) (capital : Bool) (text : List Char) :
    Except Breakdown (List Char) := do
  let text ← retouches.foldlM (fun text r => r.apply text) (tidy text)
  return if capital then capitalize text else text

def polish (retouches : List Retouch) (capital : Bool) (text : String) : Except Breakdown String :=
  (polishChars retouches capital text.toList).map String.ofList

end Retouch
end Colloquy
