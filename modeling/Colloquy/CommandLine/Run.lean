import Colloquy.CommandLine.Invocation
import Colloquy.CommandLine.Sitting
import Colloquy.Rules.Compile
import Colloquy.Script.Stored
import Colloquy.Settings.Stored

/-! Runs of the program: from a call to the end of the conversation. -/

namespace Colloquy

namespace Settings

def withCall (s : Settings) (call : Invocation) : Settings :=
  let s := match call.script.filter (· ≠ "") with
    | some path => { s with script := { s.script with path := .text path } }
    | none => s
  let s := { s with script := { s.script with seed := call.seed.getD s.script.seed } }
  if call.debug then
    { s with
      engine := { s.engine with debug := .bool true }
      logging := { s.logging with level := .text Log.Level.debug.name } }
  else s

def logRequest (s : Settings) : Log.Request :=
  { Log.Request.default with folder := s.logging.folder, level := s.logging.level, json := s.logging.json }

end Settings

namespace Invocation

/-- The paths that a run may look at or write to, as far as the files that are known tell. The file of
settings may name more of them. -/
def paths (call : Invocation) (env : Environment) (known : Files) : List Path :=
  let settings := ((Settings.gather env known call.config true).toOption).getD .default
  let given := [call.config, call.writeTo].filterMap (·.map Path.parse)
  let usual := (env.settingsFolder.toOption.map (·.child Settings.fileName)).toList
  let scripts := [settings.script.path.text?, call.script].filterMap fun path =>
    path.bind fun text => (env.expand (.parse text)).toOption
  let logs := settings.logging.folder.text?.toList.map Path.parse
  given ++ usual ++ scripts ++ logs

end Invocation

namespace Sitting

/-- Where the random numbers of a run come from if no seed is given, and the name of its
conversation. -/
structure Chance where
  unseeded : RandomSource
  session : String

/-- The settings that count for a call, with their meaning. Those of its file are checked before those
of the call go over them. -/
def settingsFor (env : Environment) (call : Invocation) : Act (Settings × Settings.Meaning) := do
  let files := (← get).files
  let settings ← ExceptT.mk (pure (Settings.load env files call.config true))
  let settings := settings.withCall call
  let meaning ← ExceptT.mk (pure (settings.check env files))
  return (settings, meaning)

def writeSettings (env : Environment) (settings : Settings) (path : String) : Act Unit := do
  match settings.save env (← get).files (some path) with
  | .ok (p, text, _) =>
    Act.change (Settings.changes p text)
    Act.printLine s!"Configuration written to {p.text}"
  | .error e => throw e

def source : String := "eliza.main"

def openConversation (env : Environment) (settings : Settings) (meaning : Settings.Meaning)
    (chance : Chance) : Act (Engine × Conversation) := do
  let script ← Act.perform (Script.load env (← get).files meaning.script.path)
  let rules ← Act.perform script.compile
  let numbers := match meaning.script.seed with
    | some seed => .ofSeed seed
    | none => chance.unseeded
  let started ← ExceptT.mk (pure (Engine.start rules (.source numbers) settings.engine))
  Act.nameSession chance.session
  Act.note [⟨.info, source, "Session started", some [(.text "seed", .data settings.script.seed)]⟩]
  return started

/-- Answers an input, and tells whether it ended the conversation. -/
def answer (e : Engine) (c : Conversation) (input : String) : Act (Bool × Conversation) := do
  let (reply, c) ← Act.takeTurn (e.reply input) c
  Act.printLine reply
  return (c.session.quit, c)

/-- Answers texts in turn until one of them ends the conversation. -/
def answerAll (e : Engine) : Conversation → List String → Act Unit
  | _, [] => return
  | c, text :: rest => do
    Act.printLine ("> " ++ text)
    let (isOver, c) ← answer e c text
    if isOver then return else answerAll e c rest

def prompt : String := "> "

/-- Begins a run: it is over, or an input is awaited. -/
def begin (env : Environment) (call : Invocation) (chance : Chance) :
    Act (Option (Engine × Conversation)) := do
  let (settings, meaning) ← settingsFor env call
  Act.setUpLog settings.logRequest
  match call.writeTo.filter (· ≠ "") with
  | some path =>
    writeSettings env settings path
    return none
  | none =>
    let (e, c) ← openConversation env settings meaning chance
    match call.say.getD [] with
    | [] =>
      let (greeting, c) ← Act.takeTurn e.greet c
      Act.printLine greeting
      Act.print prompt
      return some (e, c)
    | texts =>
      answerAll e c texts
      return none

/-- Goes on with an input that was awaited: the run is over, or another one is awaited. -/
def hear (e : Engine) (c : Conversation) (input : String) : Act (Option Conversation) := do
  let (isOver, c) ← answer e c input
  if isOver then return none
  else
    Act.print prompt
    return some c

def leave (e : Engine) (c : Conversation) : Act Unit := do
  let (farewell, _) ← Act.takeTurn e.bidFarewell c
  Act.printLine ""
  Act.printLine farewell

def interruption : String := "\nInterrupted\n"

def complaint (p : Problem) : String := s!"\nError: {p.report.text}\n"

/-- Goes through inputs, where `none` is an interruption, until the run is over. -/
def hearAll (e : Engine) : Conversation → List (Option String) → Act Unit
  | c, [] => leave e c
  | _, none :: _ => Act.print interruption
  | c, some input :: rest => do
    match ← hear e c input with
    | none => return
    | some c => hearAll e c rest

def run (env : Environment) (call : Invocation) (chance : Chance) (inputs : List (Option String)) :
    Act Unit := do
  match ← begin env call chance with
  | none => return
  | some (e, c) => hearAll e c inputs

/-- The exit code of a run, with what it has changed. A problem is printed if its details have a text;
nothing else that goes wrong has an exit code. -/
def conclude (outcome : Except Failure Unit) (s : Sitting) : Except Breakdown (Nat × Sitting) :=
  match outcome with
  | .ok () => .ok (0, s)
  | .error (.reported p) =>
    if p.report.details.isShowable then .ok (1, s.print (complaint p)) else .error .badValue
  | .error (.breakdown b) => .error b

end Sitting
end Colloquy
