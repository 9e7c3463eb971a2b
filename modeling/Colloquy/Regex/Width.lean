import Colloquy.Regex.Basic

/-! How many characters a regular expression can match. -/

namespace Colloquy.Regex

/-- The least and the greatest number of characters, the latter if there is one. -/
structure Width where
  least : Nat
  most : Option Nat
deriving DecidableEq

namespace Width

def exactly (n : Nat) : Width := ⟨n, some n⟩

def add (a b : Width) : Width :=
  ⟨a.least + b.least, a.most.bind fun m => b.most.map (m + ·)⟩

def sup (a b : Width) : Width :=
  ⟨min a.least b.least, a.most.bind fun m => b.most.map (max m ·)⟩

def times (a : Width) (least : Nat) (most : Option Nat) : Width :=
  ⟨least * a.least,
    if a.most = some 0 then some 0 else most.bind fun n => a.most.map (n * ·)⟩

def fixed? (a : Width) : Option Nat := if a.most = some a.least then some a.least else none

end Width

/-- The width of a regular expression, given the widths of the groups that it refers to. -/
def width (groups : List (Nat × Width)) : Regex → Width
  | .empty | .never | .look .. | .anchor _ => .exactly 0
  | .one _ => .exactly 1
  | .seq a b => (a.width groups).add (b.width groups)
  | .alt a b => (a.width groups).sup (b.width groups)
  | .run _ least most => (Width.exactly 1).times least most
  | .loop _ least most body => (body.width groups).times least most
  | .group _ body | .atomic body => body.width groups
  | .back index _ => (groups.lookup index).getD ⟨0, none⟩
  | .ifGroup _ present absent => (present.width groups).sup (absent.width groups)

end Colloquy.Regex
