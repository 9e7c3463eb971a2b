import Colloquy.Failure

/-! How a conversation is held: as it is set, and as it is meant once that has been checked. -/

namespace Colloquy

/-- The settings of a conversation as they are given, which may be any values. -/
structure EngineSettings where
  capitalize : Data
  capacity : Data
  hopLimit : Data
  debug : Data

/-- The settings of a conversation after the check. -/
structure Options where
  capitalize : Bool
  capacity : Nat
  hopLimit : Nat
  debug : Bool
deriving DecidableEq

namespace EngineSettings

def default : EngineSettings := ⟨.bool true, .int 20, .int 16, .bool false⟩

def names : List String := ["capitalize_first_letter", "mem_size", "max_goto_depth", "debug"]

/-- The settings with one of them set, if there is one of that name. -/
def set? (s : EngineSettings) (name : String) (value : Data) : Option EngineSettings :=
  match name with
  | "capitalize_first_letter" => some { s with capitalize := value }
  | "mem_size" => some { s with capacity := value }
  | "max_goto_depth" => some { s with hopLimit := value }
  | "debug" => some { s with debug := value }
  | _ => none

def toData (s : EngineSettings) : Data :=
  .map [(.text "capitalize_first_letter", s.capitalize), (.text "mem_size", s.capacity),
    (.text "max_goto_depth", s.hopLimit), (.text "debug", s.debug)]

/-- Checks the sizes; the rest may be any values, of which only the truth counts. -/
def check (s : EngineSettings) : Except SettingsProblem Options := do
  let capacity ← match s.capacity with
    | .int (.ofNat n) => .ok n
    | value => .error (.badCapacity value)
  let hopLimit ← match s.hopLimit with
    | .int (.ofNat (n + 1)) => .ok (n + 1)
    | value => .error (.badHopLimit value)
  return ⟨s.capitalize.isTruthy, capacity, hopLimit, s.debug.isTruthy⟩

end EngineSettings

/-- Settings from values by name, each name being one that `set?` knows. -/
def settingsOf {σ : Type} (set? : σ → String → Data → Option σ) (start : σ) :
    List (Data × Data) → Except Breakdown σ
  | [] => .ok start
  | (.text name, value) :: rest =>
    match set? start name value with
    | some s => settingsOf set? s rest
    | none => .error .wrongKind
  | _ :: _ => .error .wrongKind

end Colloquy
