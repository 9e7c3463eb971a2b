import Colloquy.Environment
import Colloquy.Files.Basic
import Colloquy.Log.Record
import Colloquy.Settings.Engine

/-! All settings of the program, as they are given and as they are meant once they have been
checked. -/

namespace Colloquy

/-- Which script is used, and the seed of its choices. A path that stands for nothing means the
script that the program brings along. -/
structure ScriptSettings where
  path : Data
  seed : Data

/-- How records are kept. A folder that stands for nothing means that no files are written. -/
structure LogSettings where
  level : Data
  json : Data
  folder : Data

/-- The parts of the settings. -/
inductive Part where
  | engine
  | script
  | logging
deriving DecidableEq

/-- How a part of the settings is written: with all of its settings, with none of them, or not at all,
for a reason. -/
inductive Listing where
  | all
  | none
  | refused (why : Breakdown)
deriving DecidableEq

/-- The settings of the program, which may be any values, and the directory where they are kept. The
parts in `blocked` can no longer be checked, and those in `listings` are written in other ways than
with all of their settings, of which the first one counts. -/
structure Settings where
  appName : Data
  version : Data
  engine : EngineSettings
  script : ScriptSettings
  logging : LogSettings
  folder : Data
  blocked : List Part
  listings : List (Part × Listing)

/-- Which script is used: none given means the one that the program brings along. -/
structure ScriptOptions where
  path : Option String
  seed : Option Int
deriving DecidableEq

namespace ScriptSettings

def default : ScriptSettings := ⟨.text "", .null⟩

/-- The settings with one of them set, if there is one of that name. -/
def set? (s : ScriptSettings) (name : String) (value : Data) : Option ScriptSettings :=
  match name with
  | "path" => some { s with path := value }
  | "seed" => some { s with seed := value }
  | _ => none

def toData (s : ScriptSettings) : Data := .map [(.text "path", s.path), (.text "seed", s.seed)]

/-- The path that is given, if it stands for something. -/
def pathGiven (s : ScriptSettings) : Except Failure (Option String) :=
  if !s.path.isTruthy then .ok none
  else
    match s.path with
    | .text path => .ok (some path)
    | _ => .error (.breakdown .wrongKind)

/-- Checks that a file stands at the path, if one is given, and that the seed is a number. -/
def check (env : Environment) (fs : Files) (s : ScriptSettings) : Except Failure ScriptOptions := do
  let path ← s.pathGiven
  if let some path := path then
    match env.expand (.parse path) with
    | .error b => throw (.breakdown b)
    | .ok p => if !(← (fs.hasFile p).mapError .breakdown) then throw (.settings (.noScript path))
  match s.seed with
  | .null => return ⟨path, none⟩
  | .int seed => return ⟨path, some seed⟩
  | value => throw (.settings (.badSeed value))

end ScriptSettings

namespace LogSettings

def default : LogSettings := ⟨.text "WARNING", .bool false, .text ""⟩

/-- The settings with one of them set, if there is one of that name. -/
def set? (s : LogSettings) (name : String) (value : Data) : Option LogSettings :=
  match name with
  | "level" => some { s with level := value }
  | "json_format" => some { s with json := value }
  | "log_dir" => some { s with folder := value }
  | _ => none

def toData (s : LogSettings) : Data :=
  .map [(.text "level", s.level), (.text "json_format", s.json), (.text "log_dir", s.folder)]

/-- Checks that the level is one. Bytes are none, whatever they spell. -/
def check (s : LogSettings) : Except Failure Log.Level :=
  match s.level with
  | .text name =>
    match Log.Level.named? name with
    | some level => .ok level
    | none => .error (.settings (.badLevel name))
  | .bytes bs => .error (.settings (.badLevel (Text.quotedBytes bs)))
  | _ => .error (.breakdown .missingPart)

end LogSettings

namespace Settings

def default : Settings :=
  ⟨.text "ElizaBot", .text "1.1.0", .default, .default, .default, .text "", [], []⟩

def partName : Part → String
  | .engine => "engine"
  | .script => "script"
  | .logging => "logging"

/-- The parts in the order in which they are read, checked and written. -/
def parts : List Part := [.engine, .script, .logging]

/-- The settings with one setting of a part set, if there is one of that name. -/
def set? (s : Settings) (part : Part) (name : String) (value : Data) : Option Settings :=
  match part with
  | .engine => (s.engine.set? name value).map fun engine => { s with engine }
  | .script => (s.script.set? name value).map fun script => { s with script }
  | .logging => (s.logging.set? name value).map fun logging => { s with logging }

def reset (s : Settings) (part : Part) : Settings :=
  let s := { s with
    blocked := s.blocked.filter (· ≠ part)
    listings := s.listings.filter (·.1 ≠ part) }
  match part with
  | .engine => { s with engine := .default }
  | .script => { s with script := .default }
  | .logging => { s with logging := .default }

/-- A part as data. Nothing in it stands in several places any more. -/
def partData (s : Settings) (part : Part) : Except Breakdown Data :=
  match (s.listings.lookup part).getD .all, part with
  | .refused why, _ => .error why
  | .none, _ => .ok (.map [])
  | .all, .engine => unfolded s.engine.toData
  | .all, .script => unfolded s.script.toData
  | .all, .logging => unfolded s.logging.toData
where
  /-- A value without marks, if it does not stand inside itself. -/
  unfolded (value : Data) : Except Breakdown Data :=
    if value.isEndless then .error .tooDeep else .ok value.unmarked

/-- The settings as data. The directory is not part of it. -/
def toData (s : Settings) : Except Breakdown (List (Data × Data)) := do
  return [(.text "app_name", s.appName), (.text "version", s.version)] ++
    (← parts.mapM fun part => do return (.text (partName part), ← s.partData part))

/-- What settings mean. -/
structure Meaning where
  engine : Options
  script : ScriptOptions
  level : Log.Level
deriving DecidableEq

def checkable (s : Settings) (part : Part) : Except Failure Unit :=
  if part ∈ s.blocked then .error (.breakdown .wrongKind) else .ok ()

def check (env : Environment) (fs : Files) (s : Settings) : Except Failure Meaning := do
  s.checkable .engine
  let engine ← s.engine.check.mapError .settings
  s.checkable .script
  let script ← s.script.check env fs
  s.checkable .logging
  let level ← s.logging.check
  return ⟨engine, script, level⟩

end Settings
end Colloquy
