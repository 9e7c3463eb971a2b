import Colloquy.Rules.Basic

/-! Redirections from rule to rule, and the cycles that they must not form. -/

namespace Colloquy.Rules

def resolveReassembly (rules : List Rule) : Reassembly → Reassembly
  | .literal template => .literal template
  | .redirect target _ => .redirect target (indexOf? rules target)

def Decomposition.resolve (rules : List Rule) (d : Decomposition) : Decomposition :=
  { d with reassemblies := d.reassemblies.map (resolveReassembly rules) }

def resolve (rules : List Rule) : List Rule :=
  rules.map fun r => { r with decompositions := r.decompositions.map (·.resolve rules) }

/-- The position that a reassembly redirects to, if it is known. -/
def redirection? : Reassembly → Option Nat
  | .literal _ => none
  | .redirect _ index => index

/-- A list in ascending order with a number put in, unless it is there. -/
def insertSorted (n : Nat) : List Nat → List Nat
  | [] => [n]
  | m :: rest => if n < m then n :: m :: rest else if n = m then m :: rest else m :: insertSorted n rest

def Rule.redirections (r : Rule) : List Nat :=
  (r.decompositions.flatMap fun d => d.reassemblies.filterMap redirection?).foldr insertSorted []

def redirectionsAt (rules : List Rule) (index : Nat) : List Nat :=
  (rules[index]?).elim [] Rule.redirections

/-- The way round from a position back to it, along a path that is given from its end. -/
def wayRound (path : List Nat) (target : Nat) : List Nat :=
  target :: (path.takeWhile (· != target)).reverse ++ [target]

/-- Follows all edges from the end of a path, which is given from its end. `done` holds what has
been followed to the end before. The result is what has been followed, or a way round. No path is
longer than `steps`. -/
def follow (edges : Nat → List Nat) : (steps : Nat) → (path : List Nat) → (done : List Nat) →
    Except (List Nat) (List Nat)
  | 0, _, done => .ok done
  | steps + 1, path, done =>
    (edges (path.headD 0)).foldlM
      (fun done target =>
        if path.contains target then .error (wayRound path target)
        else if done.contains target then .ok done
        else (follow edges steps (target :: path) done).map (target :: ·))
      done

/-- The first way round that is found from the positions below `count`, in order. -/
def cycle? (edges : Nat → List Nat) (count : Nat) : Option (List Nat) :=
  let result := (List.range count).foldlM
    (fun done start =>
      if done.contains start then .ok done
      else (follow edges (count + 1) [start] done).map (start :: ·)) []
  match result with
  | .ok _ => none
  | .error way => some way

def keywordsAt (rules : List Rule) (indices : List Nat) : List String :=
  indices.map fun i => (rules[i]?).elim "" Rule.keyword

def redirectCycle? (rules : List Rule) : Option (List String) :=
  (cycle? (redirectionsAt rules) rules.length).map (keywordsAt rules)

/-- The rules that redirect to a keyword without a rule, each with that keyword, in order. -/
def unknownTargets (rules : List Rule) : List (String × String) :=
  rules.flatMap fun r => r.decompositions.flatMap fun d => d.reassemblies.filterMap fun a =>
    match a with
    | .redirect target none => some (r.keyword, target)
    | _ => none

end Colloquy.Rules
