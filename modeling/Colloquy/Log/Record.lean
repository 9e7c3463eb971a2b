import Colloquy.Data
import Colloquy.Reassembly
import Colloquy.Text.Character

/-! What the program notes about its work. -/

namespace Colloquy.Log

/-- How much a record matters, from tracing up to failure of the whole. -/
inductive Level where
  | debug
  | info
  | warning
  | error
  | critical
  | other (rank : Nat)
deriving DecidableEq

def Level.rank : Level → Nat
  | .debug => 10
  | .info => 20
  | .warning => 30
  | .error => 40
  | .critical => 50
  | .other n => n

def Level.name : Level → String
  | .debug => "DEBUG"
  | .info => "INFO"
  | .warning => "WARNING"
  | .error => "ERROR"
  | .critical => "CRITICAL"
  | .other n => s!"Level {n}"

/-- The capital of a small Latin letter. The dotless i and the long s have the capitals of their plain
forms. -/
def capital (c : Char) : Char :=
  if c == 'ı' then 'I' else if c == 'ſ' then 'S' else Text.capitalOne c

def inCapitals (name : String) : String := String.ofList (name.toList.map capital)

def Level.named? (name : String) : Option Level :=
  [.debug, .info, .warning, .error, .critical].find? fun level => level.name = inCapitals name

/-- A value that a record carries: data, or the reassembly that was chosen. -/
inductive TraceValue where
  | data (value : Data)
  | reassembly (r : Reassembly)

/-- A record: level, name of its source, message, and values by name, if it carries any. -/
structure Record where
  level : Level
  source : String
  message : String
  trace : Option (List (Data × TraceValue))

def root : String := "eliza"

def sourceNamed (name : String) : String :=
  if name = root ∨ (root ++ ".").toList.isPrefixOf name.toList then name else root ++ "." ++ name

end Colloquy.Log
