import Colloquy.Settings.OfData
import Colloquy.Yaml.Print
import Colloquy.Yaml.Value

/-! Settings in files. -/

namespace Colloquy.Settings

def fileName : String := "config.yaml"

/-- The entries of a file of settings. A file that holds nothing has none. -/
def readEntries (fs : Files) (p : Path) : Except Failure (List (Data × Data)) :=
  match fs.read p with
  | .error (.refused why) => .error (.settings (.unreadable p.text why))
  | .error b => .error (.breakdown b)
  | .ok text =>
    match Yaml.read text with
    | .error .malformed => .error (.settings (.notYaml p.text))
    | .error (.breakdown b) => .error (.breakdown b)
    | .ok value =>
      if !value.isTruthy then .ok []
      else
        match value.entries? with
        | some entries => .ok entries
        | none => .error (.settings (.notMapping p.text))

/-- The path of the file of settings: one that is given has to lead somewhere, and the usual one is
used only if it does. -/
def sourceOf (fs : Files) (folder : Path) (given : Option String) : Except Failure (Option Path) :=
  match given.filter (· ≠ "") with
  | some path =>
    let p := Path.parse path
    do if ← (fs.has p).mapError .breakdown then return some p else throw (.settings (.noFile path))
  | none =>
    let p := folder.child fileName
    do return if ← (fs.has p).mapError .breakdown then some p else none

/-- The settings from a file, before they are checked. -/
def gather (env : Environment) (fs : Files) (given : Option String) (useVariables : Bool) :
    Except Failure Settings := do
  let folder ← env.settingsFolder.mapError .breakdown
  let s : Settings := { default with folder := .text folder.text }
  let s ← match ← sourceOf fs folder given with
    | some p => do s.withEntries (← readEntries fs p)
    | none => pure s
  if useVariables then s.withVariables env else return s

/-- The settings from a file, with those of variables over them if they are to be used. They are
checked. -/
def load (env : Environment) (fs : Files) (given : Option String) (useVariables : Bool) :
    Except Failure Settings := do
  let s ← gather env fs given useVariables
  let _ ← s.check env fs
  return s

def savePath (env : Environment) (s : Settings) (given : Option String) : Except Failure Path :=
  match given.filter (· ≠ "") with
  | some path => .ok (.parse path)
  | none =>
    if !s.folder.isTruthy then
      (env.settingsFolder.mapError .breakdown).map fun folder => folder.child fileName
    else
      match s.folder with
      | .text folder => .ok ((Path.parse folder).child fileName)
      | _ => .error (.breakdown .wrongKind)

/-- The text of a file of settings, unless they hold something that has no text. -/
def text (s : Settings) : Except Breakdown String := do
  match Yaml.write? (← s.toData) with
  | some text => return String.ofList text
  | none => throw .badValue

def changes (p : Path) (text : String) : List Change := [.makeDirectory p.parent, .write p text]

/-- Saves settings: where, what, and the files after it. The file is opened before the settings are
written out. -/
def save (env : Environment) (fs : Files) (s : Settings) (given : Option String) :
    Except Failure (Path × String × Files) := do
  let p ← s.savePath env given
  match fs.applyAll (changes p "") with
  | .error (.refused why) => throw (.settings (.unwritable p.text why))
  | .error b => throw (.breakdown b)
  | .ok _ =>
    let text ← s.text.mapError .breakdown
    let fs ← (fs.applyAll (changes p text)).mapError .breakdown
    return (p, text, fs)

end Colloquy.Settings
