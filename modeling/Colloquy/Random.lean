import Colloquy.Data
import Colloquy.Failure
import Colloquy.Text.Integer

/-! Sources of random numbers. A conversation draws every number from its source, so that the same
source gives the same conversation. -/

namespace Colloquy

/-- The numbers that are drawn one after the other, without end. -/
structure Draws where
  number : Nat → Double

def Draws.ofList (numbers : List Double) : Draws :=
  ⟨fun i => (numbers[i % numbers.length]?).getD .zero⟩

instance : Coe (List Double) Draws := ⟨Draws.ofList⟩

/-- A source of numbers: a generator with its state, or any numbers one after the other, with the
count of numbers drawn so far. -/
inductive RandomSource where
  | seeded (state : Int)
  | sequence (draws : Draws) (drawn : Nat)

def defaultSeed : Int := 1234

namespace RandomSource

/-- The generator at the start from a number. Zero stands for the default seed. -/
def ofSeed (seed : Int) : RandomSource := .seeded (if seed = 0 then defaultSeed else seed)

def modulus : Nat := 233280

def step (state : Int) : Int := (state * 9301 + 49297) % modulus

/-- The number that a state of the generator gives: its share of all states. -/
def share (state : Int) : Double := .ofRatio (state < 0) state.natAbs modulus

def next : RandomSource → Double × RandomSource
  | .seeded state => (share (step state), .seeded (step state))
  | .sequence draws drawn => (draws.number drawn, .sequence draws (drawn + 1))

def shown : RandomSource → String
  | .seeded _ => "<generator>"
  | .sequence _ _ => "<sequence>"

def isReseedable : RandomSource → Bool
  | .seeded _ => true
  | .sequence _ _ => false

/-- What is offered as a source: a source, or a value that is none. -/
inductive Offer where
  | source (s : RandomSource)
  | value (d : Data)

def Offer.accept : Offer → Except Failure RandomSource
  | .source s => .ok s
  | .value d => .error (.settings (.noRandomSource d))

end RandomSource

/-- The seed that a value gives. A value that stands for nothing gives the default one; other values
are made integers. -/
def seedOf (value : Data) : Except Breakdown Int :=
  if !value.isTruthy then .ok defaultSeed
  else
    match value with
    | .bool _ => .ok 1
    | .int i => .ok i
    | .float (.finite negative m e) => .ok (Double.truncate negative m e)
    | .float (.infinite _) => .error .tooLarge
    | .float .nan => .error .badValue
    | .text s => (Text.integer? s.toList).elim (.error .badValue) .ok
    | _ => .error .wrongKind

/-- The position in a sequence of some length that a number picks: its share of the length, moved
into the sequence if it lies outside. -/
def pickIndex (x : Double) (length : Int) : Except Breakdown Int :=
  match Double.ofInt length with
  | .finite s m e =>
    match x.mul (.finite s m e) with
    | .finite negative m e => .ok (min (max (Double.truncate negative m e) 0) (length - 1))
    | .infinite _ => .error .tooLarge
    | .nan => .error .badValue
  | _ => .error .tooLarge

end Colloquy
