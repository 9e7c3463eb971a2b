/-! Sets of characters given as ranges of code points. -/

namespace Colloquy.Text.Table

/-- Ranges of code points, both ends included, in ascending order and apart from each other. -/
abbrev Ranges := List (Nat × Nat)

def Ranges.has : Ranges → Nat → Bool
  | [], _ => false
  | (first, last) :: rest, n =>
    if n < first then false else if n ≤ last then true else Ranges.has rest n

end Colloquy.Text.Table
