import Colloquy.Data
import Colloquy.Text.Integer

/-! How the program is called: the options on its command line and what they ask for. -/

namespace Colloquy

/-- The options of the command line. -/
inductive Switch where
  | help
  | say
  | writeConfig
  | config
  | script
  | seed
  | debug
deriving DecidableEq

namespace Switch

def spellings : List (String × Switch) := [
  ("-h", .help), ("--help", .help), ("--say", .say), ("--write-config", .writeConfig),
  ("--config", .config), ("--script", .script), ("--seed", .seed), ("--debug", .debug)]

def takesValue : Switch → Bool
  | .help => false
  | .debug => false
  | _ => true

end Switch

/-- What the program is asked to do. An option may be given with nothing for its value: then the
texts are none, the path is empty, and the seed is an empty list. -/
structure Invocation where
  say : Option (List String)
  writeTo : Option String
  config : Option String
  script : Option String
  seed : Option Data
  debug : Bool

/-- Why a call is not carried out: it asks for help, or it makes no sense. -/
inductive Refusal where
  | help
  | misuse
deriving DecidableEq

def Refusal.exitCode : Refusal → Nat
  | .help => 0
  | .misuse => 2

namespace Invocation

/-- A word of the command line: a value, an option with the value that is attached to it, an option
with an attachment that it cannot have, an option that is not known, or the mark after which all
words are values. -/
inductive Word where
  | value (text : String)
  | option (s : Switch) (attached : Option String)
  | faulty
  | unknown
  | dashes
deriving DecidableEq

/-- A negative number, which is a value although it starts with a dash. A line end may follow it. -/
def isNegative (word : List Char) : Bool :=
  let word := if word.getLast? = some '\n' then word.dropLast else word
  match word with
  | '-' :: digits =>
    match digits.dropWhile Text.isDigit with
    | [] => !digits.isEmpty
    | '.' :: rest => !rest.isEmpty && rest.all Text.isDigit
    | _ => false
  | _ => false

/-- A word up to the first sign of equality, and what follows it, if there is one. -/
def splitAtSign (word : List Char) : List Char × Option (List Char) :=
  match word.dropWhile (· != '=') with
  | [] => (word, none)
  | _ :: rest => (word.takeWhile (· != '='), some rest)

def attach (s : Switch) (attached : Option (List Char)) : Word :=
  if attached.isSome && !s.takesValue then .faulty else .option s (attached.map String.ofList)

/-- The short form of the option for help, with more letters after it. It may only be repeated. -/
def helpWith (letters : List Char) : Word :=
  if letters.all (· == 'h') then .option .help none else .faulty

/-- A word that starts with a dash and is no option: a value if it is a negative number or has a
space in it. -/
def unmatched (word : List Char) : Word :=
  if isNegative word || word.contains ' ' then .value (String.ofList word) else .unknown

/-- What a word means, if it is not the mark of dashes. A long option may be cut short as long as
that leaves only one. -/
def classify (word : String) : Except Refusal Word :=
  let chars := word.toList
  let spelled (text : List Char) : Option Switch := Switch.spellings.lookup (String.ofList text)
  let (name, attached) := splitAtSign chars
  match chars with
  | '-' :: second :: letters =>
    match spelled chars, attached, spelled name with
    | some s, _, _ => .ok (.option s none)
    | none, some text, some s =>
      .ok (if second = 'h' ∧ text ≠ [] then helpWith text else attach s (some text))
    | _, _, _ =>
      if second = '-' then
        match Switch.spellings.filter fun p => name.isPrefixOf p.1.toList with
        | [] => .ok (unmatched chars)
        | [p] => .ok (attach p.2 attached)
        | _ => .error .misuse
      else if second = 'h' then .ok (helpWith letters)
      else .ok (unmatched chars)
  | _ => .ok (.value word)

def classifyAll : List String → Except Refusal (List Word)
  | [] => .ok []
  | "--" :: rest => .ok (.dashes :: rest.map .value)
  | word :: rest => do
    let first ← classify word
    return first :: (← classifyAll rest)

/-- The values at the start, and every other word with the values after it. -/
def grouped : List Word → List String × List (Word × List String)
  | [] => ([], [])
  | .value text :: rest => (text :: (grouped rest).1, (grouped rest).2)
  | word :: rest => ([], (word, (grouped rest).1) :: (grouped rest).2)

/-- A call while it is read, and whether there have been words that belong to nothing. -/
structure Progress where
  call : Invocation
  leftover : Bool

def plain : Invocation := ⟨none, none, none, none, none, false⟩

/-- Takes the texts to reply to, which excludes writing the settings. -/
def takeTexts (call : Invocation) (texts : List String) : Except Refusal Invocation :=
  if call.writeTo.isSome then .error .misuse else .ok { call with say := some texts }

/-- Takes the path to write the settings to, which excludes replies to texts. -/
def takeTarget (call : Invocation) (path : String) : Except Refusal Invocation :=
  if call.say.isSome then .error .misuse else .ok { call with writeTo := some path }

def takeValue (call : Invocation) (s : Switch) (value : String) : Except Refusal Invocation :=
  match s with
  | .help => .error .help
  | .say => takeTexts call [value]
  | .writeConfig => takeTarget call value
  | .config => .ok { call with config := some value }
  | .script => .ok { call with script := some value }
  | .seed =>
    match Text.integer? value.toList with
    | some seed => .ok { call with seed := some (.int seed) }
    | none => .error .misuse
  | .debug => .ok { call with debug := true }

def takeNothing (call : Invocation) (s : Switch) : Except Refusal Invocation :=
  match s with
  | .say => takeTexts call []
  | .seed => .ok { call with seed := some (.list []) }
  | s => takeValue call s ""

/-- Takes the value that is attached to an option. The mark of dashes is no value. -/
def takeAttached (call : Invocation) (s : Switch) (value : String) : Except Refusal Invocation :=
  if value = "--" then takeNothing call s else takeValue call s value

def step (p : Progress) (group : Word × List String) : Except Refusal Progress :=
  let left (values : List String) : Bool := p.leftover || !values.isEmpty
  match group with
  | (.option .help _, _) => .error .help
  | (.option .debug _, values) => .ok ⟨{ p.call with debug := true }, left values⟩
  | (.option s (some value), values) =>
    (takeAttached p.call s value).map fun call => ⟨call, left values⟩
  | (.option .say none, values@(_ :: _)) =>
    (takeTexts p.call values).map fun call => { p with call }
  | (.option s none, value :: values) =>
    (takeValue p.call s value).map fun call => ⟨call, left values⟩
  | (.option _ none, []) => .error .misuse
  | (.faulty, _) => .error .misuse
  | _ => .ok { p with leftover := true }

/-- Reads a command line. All words are looked at before any option is taken; words that belong to
nothing are refused at the end. -/
def read (words : List String) : Except Refusal Invocation := do
  let (values, groups) := grouped (← classifyAll words)
  let p ← groups.foldlM step ⟨plain, !values.isEmpty⟩
  if p.leftover then .error .misuse else .ok p.call

end Invocation
end Colloquy
