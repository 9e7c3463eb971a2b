import Colloquy.Files.Basic
import Colloquy.Log.Line
import Colloquy.Settings.Engine

/-! Where records go. The destinations are set up once; after that, every record of enough weight is
written to all of them. -/

namespace Colloquy.Log

/-- What is asked for when destinations are set up, which may be any values. -/
structure Request where
  folder : Data
  level : Data
  json : Data
  console : Data

/-- Where records go: from which rank on, to the terminal or not, and to which folder, if any, in
which form. -/
structure Destinations where
  threshold : Nat
  console : Bool
  folder : Option Path
  json : Bool
deriving DecidableEq

/-- The state of logging: the destinations, once they are set up, and the name of the conversation,
empty if there is none. -/
structure Journal where
  destinations : Option Destinations
  session : String
deriving DecidableEq

def usualThreshold : Nat := Level.warning.rank

/-- The rank of a name for a threshold. Names that are not known mean `info`, but two are taken for
other things. -/
def thresholdNamed (name : String) : Except Breakdown Nat :=
  match Level.named? name, inCapitals name with
  | some level, _ => .ok level.rank
  | none, "WARN" => .ok Level.warning.rank
  | none, "FATAL" => .ok Level.critical.rank
  | none, "NOTSET" => .ok usualThreshold
  | none, "BASIC_FORMAT" => .error .badValue
  | none, "_STYLES" => .error .wrongKind
  | none, _ => .ok Level.info.rank

namespace Request

def default : Request := ⟨.null, .text "INFO", .bool false, .bool true⟩

def set? (r : Request) (name : String) (value : Data) : Option Request :=
  match name with
  | "log_dir" => some { r with folder := value }
  | "log_level" => some { r with level := value }
  | "json_format" => some { r with json := value }
  | "console_output" => some { r with console := value }
  | _ => none

def destinations (r : Request) : Except Breakdown Destinations := do
  let threshold ← match r.level with
    | .text name => thresholdNamed name
    | _ => .error .missingPart
  let folder ← if !r.folder.isTruthy then .ok none
    else match r.folder with
      | .text path => .ok (some (Path.parse path))
      | _ => .error .wrongKind
  return ⟨threshold, r.console.isTruthy, folder, r.json.isTruthy⟩

end Request

def allRecords (folder : Path) : Path := folder.child "eliza.log"

def errorRecords (folder : Path) : Path := folder.child "errors.log"

namespace Journal

def blank : Journal := ⟨none, ""⟩

def preparations (folder : Path) : List Change :=
  [.makeDirectory folder, .append (allRecords folder) "", .append (errorRecords folder) ""]

/-- The journal with destinations set up, and what has to be done to files for that. Once it is set
up, nothing changes. -/
def setUp (j : Journal) (r : Request) : Except Breakdown (Journal × List Change) :=
  match j.destinations with
  | some _ => .ok (j, [])
  | none => do
    let d ← r.destinations
    return ({ j with destinations := some d }, d.folder.elim [] preparations)

/-- What a record adds to the terminal, and to files. -/
structure Output where
  console : String
  changes : List Change

/-- What a record adds. Without any destination, the bare message of a weighty record goes to the
terminal. -/
def outputOf (j : Journal) (moment : Moment) (r : Record) : Output :=
  let line : Line := ⟨r, moment, if j.session = "" then noSession else j.session, none⟩
  let bare : Output := ⟨if usualThreshold ≤ r.level.rank then r.message ++ "\n" else "", []⟩
  match j.destinations with
  | none => bare
  | some d =>
    if r.level.rank < d.threshold then ⟨"", []⟩
    else
      match d.console, d.folder with
      | false, none => bare
      | console, none => ⟨if console then line.coloured ++ "\n" else "", []⟩
      | console, some folder =>
        ⟨if console then line.coloured ++ "\n" else "",
          .append (allRecords folder) ((if d.json then line.json else line.plain) ++ "\n") ::
            if Level.error.rank ≤ r.level.rank then
              [.append (errorRecords folder) (line.json ++ "\n")]
            else []⟩

end Journal
end Colloquy.Log
