import Colloquy.Double
import Colloquy.Data.Stamp

/-! Values as data files give them. -/

namespace Colloquy

/-- What tells a value that stands in several places from other values: a number, and a position
inside the value of that number. -/
abbrev Data.Mark := Nat × Nat

/-- A value of a data file. The entries of a map are in the order of the file; `Data.ofPairs` builds
maps in which no key is repeated. A value that stands in several places is `shared` in each of them
under one mark. It may stand inside itself; then it is unfolded further than anything looks. -/
inductive Data where
  | null
  | bool (b : Bool)
  | int (i : Int)
  | float (x : Double)
  | text (s : String)
  | bytes (bs : List UInt8)
  | stamp (s : Stamp)
  | pair (first second : Data)
  | list (items : List Data)
  | map (entries : List (Data × Data))
  | set (members : List Data)
  | shared (mark : Data.Mark) (value : Data)

namespace Data

instance : Inhabited Data := ⟨.null⟩

/-- A value without the mark that tells where else it stands. -/
def bare : Data → Data
  | shared _ value => value.bare
  | value => value

/-- The quantity that a value stands for, if it does; the truth values count as one and zero. -/
def quantity? : Data → Option Double.Quantity
  | bool b => some (.whole (if b then 1 else 0))
  | int i => some (.whole i)
  | float x => some (.real x)
  | _ => none

/-- Whether two values are one and the same as keys of a map: numbers and truth values by their
quantity, times by the moment they stand for, lists and maps never. -/
def sameKey (x y : Data) : Bool :=
  match x.bare, y.bare with
  | null, null => true
  | text s, text t => s == t
  | bytes a, bytes b => a == b
  | stamp s, stamp t => s.same t
  | x, y =>
    match x.quantity?, y.quantity? with
    | some a, some b => a.eqv b
    | _, _ => false

def lookup (key : Data) : List (Data × Data) → Option Data
  | [] => none
  | (k, v) :: rest => if sameKey k key then some v else lookup key rest

/-- Entries with a value put at a key: in the key's place if it has one, else at the end. -/
def insert (key value : Data) : List (Data × Data) → List (Data × Data)
  | [] => [(key, value)]
  | (k, v) :: rest =>
    if sameKey k key then (k, value) :: rest else (k, v) :: insert key value rest

def entriesOf (pairs : List (Data × Data)) : List (Data × Data) :=
  pairs.foldl (fun entries p => insert p.1 p.2 entries) []

/-- The map of pairs put in one after the other: a repeated key keeps its first place and takes its
last value. -/
def ofPairs (pairs : List (Data × Data)) : Data := .map (entriesOf pairs)

/-- The whole number that a value counts as in the order of a set, if it does. -/
def rank? : Data → Option Int
  | bool b => some (if b then 1 else 0)
  | int i => some i
  | _ => none

/-- The number of places that a set of some members has: a power of two, and so many that less than
half of them are taken, if the set is not a small one. -/
def placesFor (count : Nat) : Nat := if count ≤ 4 then 8 else Nat.pow 2 ((2 * count).log2 + 1)

/-- The set of members that differ. Whole numbers come in the order of their places, anything else as
it is put in. -/
def ofMembers (members : List Data) : Data :=
  match members.mapM rank? with
  | none => .set members
  | some ranks =>
    let placed := (ranks.map (· % (placesFor members.length : Int))).zip members
    .set ((placed.mergeSort fun a b => a.1 ≤ b.1).map (·.2))

def field? (name : String) (entries : List (Data × Data)) : Option Data :=
  lookup (.text name) entries

/-- A value that stands for something: not null, false, zero or empty. -/
def isTruthy : Data → Bool
  | null => false
  | bool b => b
  | int i => i != 0
  | float x => !x.isZero
  | text s => !s.isEmpty
  | bytes bs => !bs.isEmpty
  | stamp _ => true
  | pair _ _ => true
  | list items => !items.isEmpty
  | map entries => !entries.isEmpty
  | set members => !members.isEmpty
  | shared _ value => value.isTruthy

def text? : Data → Option String
  | text s => some s
  | _ => none

def entries? (value : Data) : Option (List (Data × Data)) :=
  match value.bare with
  | map entries => some entries
  | _ => none

def items? (value : Data) : Option (List Data) :=
  match value.bare with
  | list items => some items
  | _ => none

def two? (value : Data) : Option (Data × Data) :=
  match value.bare with
  | pair first second => some (first, second)
  | list [first, second] => some (first, second)
  | _ => none

def texts (items : List String) : Data := .list (items.map .text)

mutual

/-- Whether a value inside the values of some marks holds one that stands inside itself, or is such a
one. -/
def isEndlessIn (around : List Mark) : Data → Bool
  | pair first second => first.isEndlessIn around || second.isEndlessIn around
  | list items => areEndless around items
  | map entries => areEndlessEntries around entries
  | set members => areEndless around members
  | shared mark value => around.contains mark || value.isEndlessIn (mark :: around)
  | _ => false

def areEndless (around : List Mark) : List Data → Bool
  | [] => false
  | x :: rest => x.isEndlessIn around || areEndless around rest

def areEndlessEntries (around : List Mark) : List (Data × Data) → Bool
  | [] => false
  | (k, v) :: rest => k.isEndlessIn around || v.isEndlessIn around || areEndlessEntries around rest

end

/-- Whether there is no end to a value, because something in it stands inside itself. -/
def isEndless (value : Data) : Bool := value.isEndlessIn []

mutual

/-- A value without marks, everything inside it included. -/
def unmarked : Data → Data
  | pair first second => pair first.unmarked second.unmarked
  | list items => list (unmarkedItems items)
  | map entries => map (unmarkedEntries entries)
  | set members => set (unmarkedItems members)
  | shared _ value => value.unmarked
  | value => value

def unmarkedItems : List Data → List Data
  | [] => []
  | x :: rest => x.unmarked :: unmarkedItems rest

def unmarkedEntries : List (Data × Data) → List (Data × Data)
  | [] => []
  | (k, v) :: rest => (k.unmarked, v.unmarked) :: unmarkedEntries rest

end

end Data
end Colloquy
