import Colloquy.Proofs.Rules.Rearranged

/-! Redirections that descend. Where keywords have levels, and every redirection leads to a lower one,
none leads back, so that rules that can be made ready one by one can be made ready together. -/

namespace Colloquy

/-- Whether a reassembly of a keyword leads to keywords of lower levels only. -/
def Reassembly.descends (level : String → Nat) (keyword : String) : Reassembly → Bool
  | .literal _ => true
  | .redirect target _ => level target < level keyword

namespace Rules
open Relation (TransGen)

variable {level : String → Nat} {rules found : List Rule} {r : Rule} {i j : Nat}

def Rule.descends (level : String → Nat) (r : Rule) : Bool :=
  r.decompositions.all fun d => d.reassemblies.all (·.descends level r.keyword)

def levelAt (level : String → Nat) (rules : List Rule) (i : Nat) : Nat :=
  (rules[i]?).elim 0 fun r => level r.keyword

theorem Redirects.levelAt_lt (descend : ∀ r ∈ rules, r.descends level = true)
    (redirects : Redirects (resolve rules) i j) : levelAt level rules j < levelAt level rules i := by
  obtain ⟨_, linked, d, inside, target, reassembly⟩ := redirects
  rw [resolve_eq_map, List.getElem?_map] at linked
  obtain ⟨r, at_i, rfl⟩ := Option.map_eq_some_iff.mp linked
  have first := indexOf?_firstAt rules target
  rw [← index_of_mem_link inside reassembly] at first
  obtain ⟨⟨r', at_j, keyword⟩, _⟩ := first
  have lower : level target < level r.keyword := by
    obtain ⟨d', written, rfl⟩ := List.mem_map.mp inside
    obtain ⟨a, chosen, same⟩ := List.mem_map.mp reassembly
    have all := List.all_eq_true.mp (descend r (List.mem_of_getElem? at_i)) d' written
    have falls := List.all_eq_true.mp all a chosen
    cases a with
    | literal template => cases same
    | redirect target' place =>
      obtain ⟨rfl, _⟩ := Reassembly.redirect.inj same
      exact of_decide_eq_true falls
  rwa [levelAt, levelAt, at_i, at_j, Option.elim_some, Option.elim_some, keyword]

/-- Redirections that lead to lower levels only form no cycle. -/
theorem checkCycles_of_descends (descend : ∀ r ∈ rules, r.descends level = true) :
    checkCycles (resolve rules) = .ok () := by
  have falls {i j : Nat} (way : TransGen (Redirects (resolve rules)) i j) :
      levelAt level rules j < levelAt level rules i := by
    induction way with
    | single redirects => exact redirects.levelAt_lt descend
    | tail _ redirects ih => exact (redirects.levelAt_lt descend).trans ih
  cases checked : checkCycles (resolve rules) with
  | ok => rfl
  | error failure =>
    obtain ⟨walk, found, _⟩ := checkCycles_error.mp checked
    obtain ⟨i, round⟩ := (cycle?_isSome_iff fun _ => redirectionsAt_beyond).mp
      (Option.isSome_iff_exists.mpr ⟨walk, found⟩)
    rw [leads_redirectionsAt] at round
    exact absurd (falls round) (Nat.lt_irrefl _)

theorem exists_of_mem_arrange (member : r ∈ arrange (placed found)) :
    ∃ r' ∈ found, ∃ position, r = { r' with position } := by
  obtain ⟨⟨r', position⟩, inside, rfl⟩ := List.mem_map.mp ((arrange_perm _).mem_iff.mp member)
  exact ⟨r', List.fst_mem_of_mem_zipIdx inside, position, rfl⟩

/-- Rules that can be made ready one by one, and descend, can be made ready together. -/
theorem compileRules_of_descends (level : String → Nat) {synonyms : List Pattern.Synonym}
    {written : List Script.Rule} (fallback : checkFallback written = .ok ())
    (ready : written.mapM (makeReady synonyms) = .ok found)
    (descend : ∀ r ∈ found, r.descends level = true) :
    (compileRules synonyms written).outcome = .ok (resolve (arrange (placed found))) := by
  have arranged : ∀ r ∈ arrange (placed found), r.descends level = true := by
    intro r member
    obtain ⟨r', inside, position, rfl⟩ := exists_of_mem_arrange member
    exact descend r' inside
  exact compileRules_eq_ok.mpr ⟨fallback, found, ready, checkCycles_of_descends arranged, rfl⟩

end Rules

/-- A script of which the rules and the retouchings can be made ready makes a rule set of them. -/
theorem Script.compile_eq_ok {script : Script} {rules : List Rules.Rule}
    {retouches : List Colloquy.Retouch}
    (ready : (Rules.compileRules script.synonyms script.rules).outcome = .ok rules)
    (touched : script.retouches.mapM Retouch.compile = .ok retouches) :
    ∃ s, script.compile.outcome = .ok s ∧ s.rules = rules ∧ s.retouches = retouches ∧
      s.initials = script.initials ∧ s.finals = script.finals := by
  have read : (script.rules.map Script.Entry.rule).mapM Script.Entry.toRule = .ok script.rules :=
    mapM_map_ok fun _ _ => rfl
  simp only [compile, Rules.compileSet, Rules.compileEntries, Rules.ruleSetOf, Log.Noted.outcome_bind,
    Log.Noted.outcome_ofExcept, Log.Noted.outcome_note, Log.Noted.outcome_pure, read, ok_bind, ready,
    touched]
  exact ⟨_, rfl, rfl, rfl, rfl, rfl⟩

end Colloquy
