import Colloquy.Environment
import Colloquy.Files.Basic
import Colloquy.Log.Noted
import Colloquy.Script.Doctor
import Colloquy.Script.OfData
import Colloquy.Yaml.Value

/-! Scripts in files. -/

namespace Colloquy.Script

def readData (fs : Files) (p : Path) : Except Failure Data :=
  match fs.read p with
  | .error (.refused why) => .error (.script (.unreadable p.text why))
  | .error b => .error (.breakdown b)
  | .ok text =>
    match Yaml.read text with
    | .error .malformed => .error (.script (.notYaml p.text))
    | .error (.breakdown b) => .error (.breakdown b)
    | .ok value => .ok (if value.isTruthy then value else .map [])

/-- The script at a path. A tilde at the start stands for the home directory. -/
def readFile (env : Environment) (fs : Files) (path : String) : Except Failure (Path × Script) := do
  let p ← (env.expand (.parse path)).mapError .breakdown
  if !(← (fs.hasFile p).mapError .breakdown) then throw (.script (.noFile p.text))
  return (p, ← ofData (← readData fs p))

def loadedRecord (fileName : String) (s : Script) : Log.Record :=
  ⟨.debug, "eliza.script", s!"Loaded script {fileName} with {s.rules.length} keywords", none⟩

def doctorName : String := "doctor.yaml"

/-- The script at a path, or the one that the program brings along if no path is given. -/
def load (env : Environment) (fs : Files) (given : Option String) : Log.Noted Script :=
  match given.filter (· ≠ "") with
  | none => ⟨[loadedRecord doctorName doctor], .ok doctor⟩
  | some path =>
    match readFile env fs path with
    | .ok (p, s) => ⟨[loadedRecord p.name s], .ok s⟩
    | .error e => .fail e

end Colloquy.Script
