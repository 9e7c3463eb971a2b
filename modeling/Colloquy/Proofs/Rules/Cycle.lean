import Colloquy.Proofs.Rules.Search
import Colloquy.Rules.Compile

/-! The check that redirections form no cycle, against the graph of redirections itself. -/

namespace Colloquy.Rules
open Relation (TransGen)

variable {rules : List Rule} {i j : Nat}

/-- One rule redirects to another by some reassembly of one of its decompositions. -/
def Redirects (rules : List Rule) (i j : Nat) : Prop :=
  ∃ r, rules[i]? = some r ∧ ∃ d ∈ r.decompositions, ∃ target,
    Reassembly.redirect target (some j) ∈ d.reassemblies

@[simp] theorem mem_insertSorted {n : Nat} {l : List Nat} : i ∈ insertSorted n l ↔ i = n ∨ i ∈ l := by
  induction l with
  | nil => simp [insertSorted]
  | cons m rest ih =>
    rw [insertSorted]
    split
    · simp
    · split
      · next same => simp [same]
      · simp only [List.mem_cons, ih]
        exact or_left_comm

@[simp] theorem mem_foldr_insertSorted {l : List Nat} : i ∈ l.foldr insertSorted [] ↔ i ∈ l := by
  induction l with
  | nil => simp
  | cons n rest ih => rw [List.foldr_cons, mem_insertSorted, ih, List.mem_cons]

theorem redirection?_eq_some {a : Reassembly} :
    redirection? a = some j ↔ ∃ target, a = .redirect target (some j) := by
  cases a <;> simp [redirection?]

theorem mem_redirections {r : Rule} :
    j ∈ r.redirections ↔ ∃ d ∈ r.decompositions, ∃ target,
      Reassembly.redirect target (some j) ∈ d.reassemblies := by
  simp only [Rule.redirections, mem_foldr_insertSorted, List.mem_flatMap, List.mem_filterMap,
    redirection?_eq_some]
  constructor
  · rintro ⟨d, hd, _, ha, target, rfl⟩
    exact ⟨d, hd, target, ha⟩
  · rintro ⟨d, hd, target, ha⟩
    exact ⟨d, hd, _, ha, target, rfl⟩

/-- The search follows just the redirections among the rules. -/
theorem leads_redirectionsAt : Leads (redirectionsAt rules) = Redirects rules := by
  funext i j
  rw [Leads, redirectionsAt, Redirects]
  cases rules[i]? with
  | none => simp
  | some r => simp [mem_redirections]

theorem redirectionsAt_beyond (beyond : rules.length ≤ i) : redirectionsAt rules i = [] := by
  rw [redirectionsAt, List.getElem?_eq_none beyond]
  rfl

theorem Redirects.lt (redirects : Redirects rules i j) : i < rules.length := by
  obtain ⟨r, found, _⟩ := redirects
  exact (List.getElem?_eq_some_iff.mp found).1

theorem checkCycles_error {failure : Failure} : checkCycles rules = .error failure ↔
    ∃ walk, cycle? (redirectionsAt rules) rules.length = some walk ∧
      failure = .rules (.cycle (keywordsAt rules walk)) := by
  rw [checkCycles, redirectCycle?]
  cases cycle? (redirectionsAt rules) rules.length with
  | none => simp
  | some walk => simp [eq_comm]

/-- Where the check passes, no redirections lead from a rule back to it. -/
theorem acyclic_of_checkCycles (checked : checkCycles rules = .ok ()) (i : Nat) :
    ¬ TransGen (Redirects rules) i i := by
  intro round
  have found := (cycle?_isSome_iff fun _ => redirectionsAt_beyond).mpr
    ⟨i, @leads_redirectionsAt rules ▸ round⟩
  obtain ⟨walk, found⟩ := Option.isSome_iff_exists.mp found
  rw [checkCycles_error.mpr ⟨walk, found, rfl⟩] at checked
  contradiction

/-- The check ends by itself, since more steps change nothing; it fails just if redirections lead from
some rule back to it; and the keywords that it reports are those of such a walk. -/
theorem checkCycles_fails_iff_cyclic (rules : List Rule) :
    (∀ start done steps, rules.length < steps →
      follow (redirectionsAt rules) steps [start] done =
        follow (redirectionsAt rules) (rules.length + 1) [start] done) ∧
    ((∃ failure, checkCycles rules = .error failure) ↔ ∃ i, TransGen (Redirects rules) i i) ∧
    ∀ failure, checkCycles rules = .error failure → ∃ walk : List Nat,
      failure = .rules (.cycle (keywordsAt rules walk)) ∧ 2 ≤ walk.length ∧
      walk.head? = walk.getLast? ∧ walk.IsChain (Redirects rules) ∧ ∀ i ∈ walk, i < rules.length := by
  have ends : ∀ i, rules.length ≤ i → redirectionsAt rules i = [] := fun _ => redirectionsAt_beyond
  refine ⟨fun start done steps larger => ?_, ?_, fun failure failed => ?_⟩
  · exact follow_steps ends (Trail.nil.cons (by simp) (by simp)) (by simp; omega) larger
  · rw [← leads_redirectionsAt, ← cycle?_isSome_iff ends, Option.isSome_iff_exists]
    constructor
    · rintro ⟨failure, failed⟩
      obtain ⟨walk, found, _⟩ := checkCycles_error.mp failed
      exact ⟨walk, found⟩
    · rintro ⟨walk, found⟩
      exact ⟨_, checkCycles_error.mpr ⟨walk, found, rfl⟩⟩
  · obtain ⟨walk, found, rfl⟩ := checkCycles_error.mp failed
    have trip := roundTrip_of_cycle? ends found
    refine ⟨walk, rfl, trip.steps, trip.closed, leads_redirectionsAt ▸ trip.chain, ?_⟩
    intro i member
    obtain ⟨j, leads⟩ := trip.leads_of_mem member
    rw [leads_redirectionsAt] at leads
    exact leads.lt

end Colloquy.Rules
