import Colloquy.Conversation
import Colloquy.Log.Journal
import Colloquy.Log.Noted

/-! What a run of the program changes, and the steps that it is made of. -/

namespace Colloquy

/-- A run of the program: the files as they are, the journal, the moment of the records to come, and
what has been done so far: what it printed, what it wrote to the terminal of records, and how it
changed files. -/
structure Sitting where
  files : Files
  journal : Log.Journal
  moment : Log.Moment
  printed : String
  logged : String
  changes : List Change

/-- A step of a run. What it changed before a failure stays changed. -/
abbrev Act (α : Type) := ExceptT Failure (StateM Sitting) α

namespace Sitting

def start (files : Files) (moment : Log.Moment) : Sitting := ⟨files, .blank, moment, "", "", []⟩

def settled (s : Sitting) : Sitting := { s with printed := "", logged := "", changes := [] }

def print (s : Sitting) (text : String) : Sitting := { s with printed := s.printed ++ text }

def change (s : Sitting) (changes : List Change) : Sitting :=
  let files := ((s.files.applyAll changes).toOption).getD s.files
  { s with files, changes := s.changes ++ changes }

def note (s : Sitting) (r : Log.Record) : Sitting :=
  let output := s.journal.outputOf s.moment r
  let s := s.change output.changes
  { s with logged := s.logged ++ output.console }

end Sitting

namespace Act

def print (text : String) : Act Unit := modify fun s => s.print text

def printLine (text : String) : Act Unit := print (text ++ "\n")

def change (changes : List Change) : Act Unit := do
  match (← get).files.applyAll changes with
  | .ok _ => modify fun s => s.change changes
  | .error b => throw (.breakdown b)

def note (records : List Log.Record) : Act Unit := modify fun s => records.foldl Sitting.note s

def setUpLog (request : Log.Request) : Act Unit := do
  match (← get).journal.setUp request with
  | .ok (journal, changes) =>
    change changes
    modify fun s => { s with journal }
  | .error b => throw (.breakdown b)

def nameSession (session : String) : Act Unit :=
  modify fun s => { s with journal := { s.journal with session } }

def perform {α : Type} (x : Log.Noted α) : Act α := do
  note x.records
  match x.outcome with
  | .ok a => return a
  | .error e => throw e

def takeTurn {α : Type} (t : Turn α) (c : Conversation) : Act (α × Conversation) := do
  let (outcome, c) := StateT.run t.run c
  note c.records
  match outcome with
  | .ok a => return (a, { c with records := [] })
  | .error e => throw e

end Act

end Colloquy
