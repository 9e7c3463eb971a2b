/-! Paths: how the name of a file is taken apart and put together again. -/

namespace Colloquy

/-- A path: the number of slashes at its start, and its names. A path without a slash at its start
begins at the working directory. Names are never empty and never a single dot. -/
structure Path where
  slashes : Nat
  names : List String
deriving DecidableEq, Inhabited

namespace Path

def namesIn (text : String) : List String :=
  ((text.toList.splitOn '/').map String.ofList).filter fun name => name ≠ "" ∧ name ≠ "."

/-- The path that a text stands for. Slashes between names and at the end count once; exactly two at
the start are kept. -/
def parse (text : String) : Path :=
  let leading := (text.toList.takeWhile (· == '/')).length
  ⟨if leading ≤ 2 then leading else 1, namesIn text⟩

/-- The text of a path; the working directory is a dot. -/
def text (p : Path) : String :=
  if p.slashes = 0 ∧ p.names = [] then "."
  else String.ofList (List.replicate p.slashes '/') ++ "/".intercalate p.names

def join (p q : Path) : Path := if q.slashes = 0 then ⟨p.slashes, p.names ++ q.names⟩ else q

def child (p : Path) (name : String) : Path := ⟨p.slashes, p.names ++ [name]⟩

def parent (p : Path) : Path := ⟨p.slashes, p.names.dropLast⟩

/-- The last name of a path, empty if it has none. -/
def name (p : Path) : String := p.names.getLast?.getD ""

/-- Whether files can have such a path: no name holds the character of code zero. -/
def isUsable (p : Path) : Bool := p.names.all fun name => !name.toList.contains '\x00'

end Path
end Colloquy
