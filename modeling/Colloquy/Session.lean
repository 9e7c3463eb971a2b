import Colloquy.Memory
import Colloquy.Rules.Basic

/-! What one conversation changes: its memory, the choices it made last, and whether it is over. -/

namespace Colloquy

abbrev Slot := Nat × Nat

/-- The reassembly that was last chosen for each decomposition, by its position; `-1` where there is
none. -/
structure History where
  entries : List (Slot × Int)
deriving DecidableEq

namespace History

def none : Int := -1

def slots (s : RuleSet) : List Slot :=
  s.rules.zipIdx.flatMap fun p => (List.range p.1.decompositions.length).map fun d => (p.2, d)

def fresh (s : RuleSet) : History := ⟨(slots s).map fun slot => (slot, none)⟩

def last (h : History) (slot : Slot) : Int := (h.entries.lookup slot).getD none

/-- Entries with a choice put in: in its place if the decomposition has one, else at the end. -/
def put (slot : Slot) (choice : Int) : List (Slot × Int) → List (Slot × Int)
  | [] => [(slot, choice)]
  | (s, c) :: rest => if s = slot then (s, choice) :: rest else (s, c) :: put slot choice rest

def note (h : History) (slot : Slot) (choice : Int) : History := ⟨put slot choice h.entries⟩

/-- The choice that is made when a candidate has been drawn, and the history after it. The choice
made last gives way to the next one; past the end it gives way to the first, and the history starts
anew. -/
def choose (h : History) (slot : Slot) (candidate count : Int) : Int × History :=
  let last := h.last slot
  if candidate ≠ last then (candidate, h.note slot candidate)
  else if count ≤ last + 1 then (0, h.note slot none)
  else (last + 1, h.note slot (last + 1))

end History

/-- The state of one conversation. -/
structure Session where
  memory : Memory
  history : History
  quit : Bool
deriving DecidableEq

namespace Session

def start (s : RuleSet) (capacity : Int) : Session := ⟨.empty capacity, .fresh s, false⟩

def reset (s : RuleSet) (session : Session) : Session := ⟨session.memory.clear, .fresh s, false⟩

end Session
end Colloquy
