/-! Replies that are kept for later. The oldest one makes room when there are too many. -/

namespace Colloquy

/-- Kept replies, oldest first, and how many may be kept. -/
structure Memory where
  capacity : Int
  items : List String
deriving DecidableEq

namespace Memory

def defaultCapacity : Int := 20

def empty (capacity : Int) : Memory := ⟨capacity, []⟩

def size (m : Memory) : Nat := m.items.length

/-- Whether replies can be saved. A capacity below zero cannot be kept even by an empty memory. -/
def canSave (m : Memory) : Bool := 0 ≤ m.capacity

/-- The memory with a reply added at the end, and without the oldest ones that are too many. -/
def save (m : Memory) (reply : String) : Memory :=
  let items := m.items ++ [reply]
  { m with items := items.drop (items.length - m.capacity.toNat) }

def take? (m : Memory) (index : Nat) : Option (String × Memory) :=
  (m.items[index]?).map fun reply => (reply, { m with items := m.items.eraseIdx index })

def clear (m : Memory) : Memory := { m with items := [] }

end Memory
end Colloquy
