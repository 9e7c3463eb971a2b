import Colloquy.Data.Shown

/-! What is to be written of a value: a value that stands in several places is written in the first of
them, under a name, and only the name is written in the others. -/

namespace Colloquy.Yaml

/-- What comes before the content of a node: the number of its name and its kind, where they have to be
told. -/
structure Heading where
  name : Option Nat
  kind : Option String

/-- A value as it is to be written. -/
inductive Outline where
  | reference (name : Nat)
  | scalar (heading : Heading) (value : Data)
  | sequence (heading : Heading) (items : List Outline)
  | mapping (heading : Heading) (entries : List (Outline × Outline))

/-- The marks that are met on the way through a value, and those that are met again, in the order in
which that happens. What stands under a mark is looked at once only. -/
structure Census where
  met : List Data.Mark
  again : List Data.Mark

namespace Census

def meet (c : Census) (mark : Data.Mark) : Census :=
  if !c.met.contains mark then { c with met := mark :: c.met }
  else if c.again.contains mark then c
  else { c with again := c.again ++ [mark] }

mutual

def look (c : Census) : Data → Census
  | .pair first second => (c.look first).look second
  | .list items => c.lookItems items
  | .map entries => c.lookEntries entries
  | .set members => c.lookItems members
  | .shared mark value => if c.met.contains mark then c.meet mark else (c.meet mark).look value
  | _ => c

def lookItems (c : Census) : List Data → Census
  | [] => c
  | x :: rest => (c.look x).lookItems rest

def lookEntries (c : Census) : List (Data × Data) → Census
  | [] => c
  | (k, v) :: rest => ((c.look k).look v).lookEntries rest

end

/-- The number of the name of a mark, if it has been met again. -/
def name? (c : Census) (mark : Data.Mark) : Option Nat := (c.again.idxOf? mark).map (· + 1)

end Census

namespace Outline

/-- Steps of outlining, with the marks under which something has been outlined. -/
abbrev Outliner := StateM (List Data.Mark)

mutual

def ofNamed (c : Census) (name : Option Nat) : Data → Outliner Outline
  | .shared mark value => do
    if (← get).contains mark then return .reference ((c.name? mark).getD 0)
    modify (mark :: ·)
    ofNamed c (c.name? mark) value
  | .pair first second => do
    return .sequence ⟨name, some "!!python/tuple"⟩ [← ofNamed c none first, ← ofNamed c none second]
  | .list items => do return .sequence ⟨name, none⟩ (← ofItems c items)
  | .map entries => do return .mapping ⟨name, none⟩ (← ofEntries c entries)
  | .set members => do
    return .mapping ⟨name, some "!!set"⟩
      ((← ofItems c members).map fun member => (member, .scalar ⟨none, none⟩ .null))
  | .bytes bs => return .scalar ⟨name, some "!!binary"⟩ (.bytes bs)
  | value => return .scalar ⟨name, none⟩ value

def ofItems (c : Census) : List Data → Outliner (List Outline)
  | [] => return []
  | x :: rest => do
    let item ← ofNamed c none x
    return item :: (← ofItems c rest)

def ofEntries (c : Census) : List (Data × Data) → Outliner (List (Outline × Outline))
  | [] => return []
  | (k, v) :: rest => do
    let key ← ofNamed c none k
    let value ← ofNamed c none v
    return (key, value) :: (← ofEntries c rest)

end

mutual

def isShowable : Outline → Bool
  | .reference _ => true
  | .scalar _ value => value.isShowable
  | .sequence _ items => areShowable items
  | .mapping _ entries => areShowableEntries entries

def areShowable : List Outline → Bool
  | [] => true
  | x :: rest => x.isShowable && areShowable rest

def areShowableEntries : List (Outline × Outline) → Bool
  | [] => true
  | (k, v) :: rest => k.isShowable && v.isShowable && areShowableEntries rest

end

def entriesOf (entries : List (Data × Data)) : List (Outline × Outline) :=
  let census := Census.lookEntries ⟨[], []⟩ entries
  ((ofEntries census entries).run []).1

end Outline
end Colloquy.Yaml
