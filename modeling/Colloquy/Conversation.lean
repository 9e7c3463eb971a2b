import Colloquy.Fragment
import Colloquy.Log.Record
import Colloquy.Random
import Colloquy.Session
import Colloquy.Settings.Engine

/-! Conversations: what is answered to an input. Rules are tried on each fragment of the input in
turn; when none of them answers, a kept reply does, and last the fallback rule. -/

namespace Colloquy

open Text

/-- What a conversation is held with: its rules, with the position of the fallback rule, and its
options. None of it changes. -/
structure Engine where
  rules : RuleSet
  fallback : Nat
  options : Options

/-- Everything that a conversation changes, and the records of its work. -/
structure Conversation where
  source : RandomSource
  session : Session
  records : List Log.Record

/-- A step of a conversation. What it changed before a failure stays changed. -/
abbrev Turn (α : Type) := ExceptT Failure (StateM Conversation) α

namespace Turn

def source : String := "eliza.engine"

def note (level : Log.Level) (message : String) (trace : List (String × Log.TraceValue)) :
    Turn Unit :=
  let named := trace.map fun entry => (Data.text entry.1, entry.2)
  modify fun c => { c with records := c.records ++ [⟨level, source, message, some named⟩] }

def changeSession (f : Session → Session) : Turn Unit :=
  modify fun c => { c with session := f c.session }

def breakDown {α : Type} (b : Breakdown) : Turn α := throw (.breakdown b)

def pick (count : Int) : Turn Int := do
  let c ← get
  let (x, source) := c.source.next
  set { c with source }
  match pickIndex x count with
  | .ok index => return index
  | .error b => breakDown b

/-- Draws one of some texts; there is nothing to draw from none. -/
def pickText (texts : List String) : Turn String :=
  if texts.isEmpty then return ""
  else do
    let index ← pick texts.length
    match texts[index.toNat]? with
    | some text => return text
    | none => breakDown .outOfRange

def choose (slot : Slot) (count : Nat) : Turn Int := do
  let candidate ← pick count
  let session := (← get).session
  let (choice, history) := session.history.choose slot candidate count
  changeSession fun s => { s with history }
  return choice

def remember (reply : String) : Turn Unit := do
  changeSession fun s => { s with memory := s.memory.save reply }
  let memory := (← get).session.memory
  if !memory.canSave then breakDown .outOfRange
  note .debug "Saved reply to memory" [("stored", .data (.int memory.size))]

def fetchKept? : Turn (Option String) := do
  let memory := (← get).session.memory
  if memory.items.isEmpty then return none
  else
    let index ← pick memory.size
    match memory.take? index.toNat with
    | some (reply, memory) =>
      changeSession fun s => { s with memory }
      return some reply
    | none => breakDown .outOfRange

end Turn

namespace Engine

/-- An engine for a rule set. It needs a fallback rule. -/
def make (rules : RuleSet) (options : Options) : Except Failure Engine :=
  match rules.fallback? with
  | some fallback => .ok ⟨rules, fallback, options⟩
  | none => .error (.settings .noFallback)

def captured (groups : Nat) (m : Regex.Match) (index : Nat) : Except Breakdown (Option (List Char)) :=
  if groups < index then .error .outOfRange else .ok (m.group? index)

/-- A captured text as replies repeat it. A capture that took no part is empty, and so is one that
the pattern does not have. -/
def echo (e : Engine) (groups : Nat) (m : Regex.Match) (index : Nat) :
    Except Breakdown (List Char) :=
  if groups < index then .ok []
  else do return e.rules.posts.applyTo ((← captured groups m index).getD [])

def assemble (e : Engine) (d : Rules.Decomposition) (m : Regex.Match) (template : String) :
    Turn String :=
  match Template.fill (e.echo d.expression.groups m) (Template.pieces template) with
  | .ok text => return String.ofList (tidy text)
  | .error b => Turn.breakDown b

def noteChoice (e : Engine) (r : Rules.Rule) (d : Rules.Decomposition) (chosen : Reassembly) :
    Turn Unit :=
  if e.options.debug then
    Turn.note .debug "rule matched" [
      ("keyword", .data (.text r.keyword)), ("rank", .data (.int r.rank)),
      ("decomposition", .data (.text d.source)), ("reassembly", .reassembly chosen),
      ("memory", .data (.bool d.kept))]
  else return

/-- Tries decompositions of a rule in order, each with its position, until one of them replies.
Replies to be kept do not count. `hop` follows a redirection, unless there have been too many. -/
def tryDecompositions (e : Engine) (r : Rules.Rule) (index depth : Nat)
    (hop : Option (Nat → Turn (Option String))) (fragment : List Char) :
    List (Rules.Decomposition × Nat) → Turn (Option String)
  | [] => return none
  | (d, position) :: rest => do
    match d.match? fragment with
    | none => tryDecompositions e r index depth hop fragment rest
    | some m =>
      let choice ← Turn.choose (index, position) d.reassemblies.length
      match d.reassemblies[choice.toNat]? with
      | none => Turn.breakDown .outOfRange
      | some chosen =>
        e.noteChoice r d chosen
        match chosen with
        | .redirect target none =>
          Turn.note .debug "goto target not found" [("target", .data (.text target))]
          tryDecompositions e r index depth hop fragment rest
        | .redirect _ (some target) =>
          match hop with
          | some follow => follow target
          | none =>
            Turn.note .warning "goto depth limit reached"
              [("keyword", .data (.text r.keyword)), ("depth", .data (.int depth))]
            tryDecompositions e r index depth hop fragment rest
        | .literal template =>
          let reply ← e.assemble d m template
          if d.kept then
            Turn.remember reply
            tryDecompositions e r index depth hop fragment rest
          else return some reply

/-- Runs the rule at a position on a fragment, with so many redirections left. -/
def runRule (e : Engine) (fragment : List Char) : (hops : Nat) → (index : Nat) → Turn (Option String)
  | 0, index =>
    match e.rules.rules[index]? with
    | none => Turn.breakDown .outOfRange
    | some r =>
      e.tryDecompositions r index e.options.hopLimit none fragment r.decompositions.zipIdx
  | hops + 1, index =>
    match e.rules.rules[index]? with
    | none => Turn.breakDown .outOfRange
    | some r =>
      e.tryDecompositions r index (e.options.hopLimit - (hops + 1))
        (some fun target => e.runRule fragment hops target) fragment r.decompositions.zipIdx

def answerBy (e : Engine) (fragment : List Char) (index : Nat) : Turn (Option String) :=
  e.runRule fragment e.options.hopLimit index

/-- Runs the rules whose keywords stand in a fragment, in order, until one of them replies. -/
def tryRules (e : Engine) (fragment : List Char) :
    List (Rules.Rule × Nat) → Turn (Option String)
  | [] => return none
  | (r, index) :: rest =>
    if r.appliesTo fragment then do
      match ← e.answerBy fragment index with
      | some reply => return some reply
      | none => tryRules e fragment rest
    else tryRules e fragment rest

def finish (e : Engine) (reply : String) : Turn String :=
  match Retouch.polish e.rules.retouches e.options.capitalize reply with
  | .ok text => return text
  | .error b => Turn.breakDown b

/-- What a fragment of the input leads to. -/
inductive Outcome where
  | farewell
  | reply (text : String)
  | nothing

/-- What the first fragment that leads to anything leads to. -/
def tryFragments (e : Engine) : List String → Turn Outcome
  | [] => return .nothing
  | fragment :: rest =>
    if e.rules.quits.contains fragment then return .farewell
    else do
      match ← e.tryRules (e.rules.pres.applyTo fragment.toList) e.rules.rules.zipIdx with
      | some reply => return .reply reply
      | none => tryFragments e rest

def lossForWords : String := "I am at a loss for words."

/-- The reply when no fragment has led to anything: a kept one, or that of the fallback rule. -/
def fallBack (e : Engine) : Turn String := do
  match ← Turn.fetchKept? with
  | some reply =>
    let remaining := (← get).session.memory.size
    Turn.note .debug "Replying from memory" [("remaining", .data (.int remaining))]
    e.finish reply
  | none =>
    match ← e.answerBy [' '] e.fallback with
    | some reply => e.finish reply
    | none => return lossForWords

def greet (e : Engine) : Turn String := Turn.pickText e.rules.initials

def bidFarewell (e : Engine) : Turn String := Turn.pickText e.rules.finals

def reply (e : Engine) (input : String) : Turn String := do
  Turn.changeSession fun s => { s with quit := false }
  match ← e.tryFragments (Fragment.split input) with
  | .farewell =>
    Turn.changeSession fun s => { s with quit := true }
    e.bidFarewell
  | .reply text => e.finish text
  | .nothing => e.fallBack

/-- Back to the start of the conversation. The source of numbers goes on. -/
def reset (e : Engine) : Turn Unit := Turn.changeSession fun s => s.reset e.rules

/-- Starts the source of numbers again from a seed, and the conversation with it. -/
def reseed (e : Engine) (seed : Data) : Turn Unit := do
  let c ← get
  match c.source with
  | .sequence _ _ => throw (.settings (.notReseedable c.source.shown))
  | .seeded _ =>
    match seedOf seed with
    | .error b => Turn.breakDown b
    | .ok state =>
      set { c with source := .seeded state }
      e.reset

/-- A conversation at its start, with the engine that holds it. The source of numbers is looked at
first, then the settings, then the rules. -/
def start (rules : RuleSet) (source : RandomSource.Offer) (settings : EngineSettings) :
    Except Failure (Engine × Conversation) := do
  let source ← source.accept
  match settings.check with
  | .error p => .error (.settings p)
  | .ok options =>
    let e ← make rules options
    return (e, ⟨source, .start rules options.capacity, []⟩)

end Engine
end Colloquy
