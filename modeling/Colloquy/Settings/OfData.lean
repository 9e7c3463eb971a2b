import Colloquy.Data.Shown
import Colloquy.Settings.Basic
import Colloquy.Text.Case
import Colloquy.Text.Integer

/-! Settings from a data file and from variables. What a file gives goes over what stood before, and
what a variable gives goes over both. -/

namespace Colloquy.Settings

def listingName : String := "__dataclass_fields__"

/-- How a part is written after its list of settings has been replaced: an empty list leaves nothing to
be written, and anything else is no such list. -/
def listingOf (value : Data) : Listing :=
  match value.entries? with
  | some [] => .none
  | _ => .refused .missingPart

/-- The settings after an assignment to a part by name. Names that no setting has are passed over, but
two of them are taken: one for the check of the part, one for the list of its settings. -/
def assignEntry (s : Settings) (part : Part) (name : String) (value : Data) : Settings :=
  if name = "validate" then { s with blocked := part :: s.blocked }
  else if name = listingName then { s with listings := (part, listingOf value) :: s.listings }
  else (s.set? part name value).getD s

/-- The settings after an assignment of a part as a whole. Only names count. -/
def replacePart (s : Settings) (part : Part) (entries : List (Data × Data)) : Settings :=
  entries.foldl (fun s entry =>
    match entry.1 with
    | .text name => s.assignEntry part name entry.2
    | _ => s) (s.reset part)

/-- The settings after an entry of a part. Some names are kept from being assigned to. -/
def setEntry (part : Part) (s : Settings) (entry : Data × Data) : Except Breakdown Settings :=
  match entry.1, entry.2.entries? with
  | .text "__class__", _ => .error .wrongKind
  | .text "__weakref__", _ => .error .missingPart
  | .text "__dict__", some entries => .ok (s.replacePart part entries)
  | .text "__dict__", none => .error .wrongKind
  | .text name, _ => .ok (s.assignEntry part name entry.2)
  | _, _ => .error .wrongKind

/-- The settings after a part of a data file. A part that stands for nothing is passed over. -/
def setPart (entries : List (Data × Data)) (s : Settings) (part : Part) : Except Failure Settings :=
  let value := (Data.field? (partName part) entries).getD .null
  if !value.isTruthy then .ok s
  else
    match value.entries? with
    | some entries => (entries.foldlM (setEntry part) s).mapError .breakdown
    | none => .error (.settings (.sectionNotMapping (partName part)))

def withEntries (s : Settings) (entries : List (Data × Data)) : Except Failure Settings := do
  let appName := (Data.field? "app_name" entries).getD s.appName
  let version ← match Data.field? "version" entries with
    | some value =>
      match value.plain? with
      | some text => pure (.text text)
      | none => throw (.breakdown .badValue)
    | none => pure s.version
  parts.foldlM (setPart entries) { s with appName, version }

/-- How the value of a variable is read. -/
inductive Reading where
  | truth
  | number
  | words

def Reading.value? : Reading → String → Option Data
  | .truth, text =>
    some (.bool (["true", "1", "yes", "on"].contains (String.ofList (Text.lower text.toList))))
  | .number, text => (Text.integer? text.toList).map .int
  | .words, text => some (.text text)

/-- A variable that gives a setting. -/
structure Variable where
  name : String
  part : Part
  setting : String
  reading : Reading

/-- The variables that give settings, in the order in which they are looked at. -/
def knownVariables : List Variable := [
  ⟨"ELIZA_ENGINE_CAPITALIZE_FIRST_LETTER", .engine, "capitalize_first_letter", .truth⟩,
  ⟨"ELIZA_ENGINE_MEM_SIZE", .engine, "mem_size", .number⟩,
  ⟨"ELIZA_ENGINE_MAX_GOTO_DEPTH", .engine, "max_goto_depth", .number⟩,
  ⟨"ELIZA_ENGINE_DEBUG", .engine, "debug", .truth⟩,
  ⟨"ELIZA_SCRIPT_PATH", .script, "path", .words⟩,
  ⟨"ELIZA_SCRIPT_SEED", .script, "seed", .number⟩,
  ⟨"ELIZA_LOG_LEVEL", .logging, "level", .words⟩,
  ⟨"ELIZA_LOG_DIR", .logging, "log_dir", .words⟩]

def setVariable (env : Environment) (s : Settings) (v : Variable) : Except Failure Settings :=
  match env.get? v.name with
  | none => .ok s
  | some text =>
    match v.reading.value? text with
    | some value => .ok ((s.set? v.part v.setting value).getD s)
    | none => .error (.settings (.badVariable v.name text))

def withVariables (s : Settings) (env : Environment) : Except Failure Settings :=
  knownVariables.foldlM (setVariable env) s

def partNamed? (name : String) : Option Part := parts.find? fun p => partName p = name

/-- The settings after an assignment by full name, such as `engine.debug`. A name that no setting
has changes nothing, and a part that is set as a whole can no longer be written or set in parts. -/
def assign (s : Settings) (name : String) (value : Data) : Except Breakdown Settings :=
  match name.splitOn "." with
  | ["app_name"] => .ok { s with appName := value }
  | ["version"] => .ok { s with version := value }
  | ["config_dir"] => .ok { s with folder := value }
  | [part] =>
    match partNamed? part with
    | some p => .ok { s with listings := (p, .refused .wrongKind) :: s.listings }
    | none => .ok s
  | [part, setting] =>
    match partNamed? part with
    | some p =>
      if s.listings.contains (p, .refused .wrongKind) then .error .missingPart
      else setEntry p s (.text setting, value)
    | none => .error .missingPart
  | _ => .error .missingPart

end Colloquy.Settings
