import Colloquy.Rules.Redirect
import Mathlib.Data.List.Chain
import Mathlib.Data.List.Perm.Subperm
import Mathlib.Logic.Relation

/-! The search for a way round in a graph of positions, for any number of them. What has been
followed to its end is kept in an order in which every position stands before those it leads to. That
order rules out a way round among them, and a position that is met again on the path closes one. -/

namespace Colloquy.Rules
open Relation (TransGen ReflTransGen)

def Leads (edges : Nat → List Nat) (i j : Nat) : Prop := j ∈ edges i

/-- Positions in an order in which everything that one of them leads to stands after it. -/
def Settled (edges : Nat → List Nat) : List Nat → Prop
  | [] => True
  | i :: rest => i ∉ rest ∧ (∀ j ∈ edges i, j ∈ rest) ∧ Settled edges rest

/-- A path that is given from its end, with no position on it twice. -/
structure Trail (edges : Nat → List Nat) (path : List Nat) : Prop where
  chain : path.IsChain fun i j => Leads edges j i
  nodup : path.Nodup

/-- A walk of at least one step that ends where it begins. -/
structure RoundTrip (edges : Nat → List Nat) (walk : List Nat) : Prop where
  steps : 2 ≤ walk.length
  closed : walk.head? = walk.getLast?
  chain : walk.IsChain (Leads edges)

variable {edges : Nat → List Nat} {path done walk : List Nat} {i j target count steps : Nat}

namespace Settled

theorem mem_of_leads (settled : Settled edges done) (member : i ∈ done) (leads : Leads edges i j) :
    j ∈ done := by
  induction done with
  | nil => contradiction
  | cons first rest ih =>
    obtain ⟨_, leadsOn, settled⟩ := settled
    rcases List.mem_cons.mp member with rfl | member
    · exact List.mem_cons_of_mem _ (leadsOn j leads)
    · exact List.mem_cons_of_mem _ (ih settled member)

theorem mem_of_reaches (settled : Settled edges done) (member : i ∈ done)
    (reaches : ReflTransGen (Leads edges) i j) : j ∈ done := by
  induction reaches with
  | refl => exact member
  | tail _ leads ih => exact settled.mem_of_leads ih leads

/-- No way round begins at a position that is settled. -/
theorem acyclic (settled : Settled edges done) (member : i ∈ done) :
    ¬ TransGen (Leads edges) i i := by
  induction done with
  | nil => contradiction
  | cons first rest ih =>
    obtain ⟨fresh, leadsOn, settled⟩ := settled
    rcases List.mem_cons.mp member with rfl | member
    · intro round
      obtain ⟨next, leads, back⟩ := TransGen.head'_iff.mp round
      exact fresh (settled.mem_of_reaches (leadsOn next leads) back)
    · exact ih settled member

end Settled

namespace Trail

theorem nil : Trail edges [] := ⟨.nil, List.nodup_nil⟩

theorem cons (trail : Trail edges path) (leads : ∀ i ∈ path.head?, Leads edges i target)
    (fresh : target ∉ path) : Trail edges (target :: path) :=
  ⟨List.isChain_cons.mpr ⟨leads, trail.chain⟩, List.nodup_cons.mpr ⟨fresh, trail.nodup⟩⟩

/-- Every position on a path but the last leads somewhere. -/
theorem lt_of_mem (trail : Trail edges (i :: path)) (ends : ∀ i, count ≤ i → edges i = [])
    (member : j ∈ path) : j < count := by
  induction path generalizing i with
  | nil => contradiction
  | cons k rest ih =>
    obtain ⟨leads, chain⟩ := List.isChain_cons.mp trail.chain
    rcases List.mem_cons.mp member with rfl | member
    · have onward : i ∈ edges j := leads j rfl
      by_contra beyond
      rw [ends j (by omega)] at onward
      contradiction
    · exact ih ⟨chain, (List.nodup_cons.mp trail.nodup).2⟩ member

/-- A trail is not longer than there are positions with edges, and one. -/
theorem length_le (trail : Trail edges path) (ends : ∀ i, count ≤ i → edges i = []) :
    path.length ≤ count + 1 := by
  cases path with
  | nil => simp
  | cons i path =>
    have inside : path ⊆ List.range count := fun j member =>
      List.mem_range.mpr (trail.lt_of_mem ends member)
    have bound := ((List.nodup_cons.mp trail.nodup).2.subperm inside).length_le
    rw [List.length_range] at bound
    simpa using bound

/-- A position that is met again on the path closes a walk. -/
theorem wayRound (trail : Trail edges path) (leads : ∀ i ∈ path.head?, Leads edges i target)
    (met : target ∈ path) : RoundTrip edges (wayRound path target) := by
  obtain ⟨later, earlier, rfl, fresh⟩ := List.eq_append_cons_of_mem met
  have taken : (later ++ target :: earlier).takeWhile (· != target) = later := by
    rw [List.takeWhile_append_of_pos fun i member =>
      bne_iff_ne.mpr (ne_of_mem_of_not_mem member fresh)]
    simp
  rw [Rules.wayRound, taken]
  refine ⟨by simp, by rw [List.getLast?_append]; rfl, ?_⟩
  have back : (target :: (later ++ [target])).IsChain fun i j => Leads edges j i := by
    refine List.isChain_cons.mpr ⟨fun i head => leads i ?_, ?_⟩
    · cases later <;> simpa using head
    · exact (List.isChain_split.mp trail.chain).1
  rw [← List.isChain_reverse] at back
  simpa using back

end Trail

theorem RoundTrip.reaches (trip : RoundTrip edges walk) : ∃ i, TransGen (Leads edges) i i := by
  obtain ⟨steps, closed, chain⟩ := trip
  match walk with
  | i :: j :: rest =>
    have linked : (i :: j :: rest).IsChain (TransGen (Leads edges)) := chain.imp fun _ _ h => .single h
    refine ⟨i, linked.rel_cons ?_⟩
    rw [List.head?_cons, List.getLast?_cons_cons] at closed
    exact List.mem_of_getLast? closed.symm

/-- A walk goes on from each of its positions, from the last one as from the first. -/
theorem RoundTrip.leads_of_mem (trip : RoundTrip edges walk) (member : i ∈ walk) :
    ∃ j, Leads edges i j := by
  obtain ⟨steps, closed, chain⟩ := trip
  obtain ⟨before, after, rfl⟩ := List.append_of_mem member
  cases after with
  | cons j after => exact ⟨j, (List.isChain_append_cons_cons.mp chain).2.1⟩
  | nil =>
    cases before with
    | nil => simp at steps
    | cons first before =>
      rw [List.getLast?_append, List.getLast?_singleton, Option.some_or] at closed
      obtain rfl : first = i := Option.some.inj closed
      cases before with
      | nil => exact ⟨first, (List.isChain_cons_cons.mp chain).1⟩
      | cons j before => exact ⟨j, (List.isChain_cons_cons.mp chain).1⟩

/-- The search at some moment: what has been followed to its end is in order and off the path. -/
structure Searching (edges : Nat → List Nat) (path done : List Nat) : Prop where
  settled : Settled edges done
  apart : ∀ i ∈ path, i ∉ done

/-- What following some positions from the end of a path may lead to: all of them followed to their
ends besides what was so before, or a way round. -/
def Answers (edges : Nat → List Nat) (path done targets : List Nat) :
    Except (List Nat) (List Nat) → Prop
  | .ok after => Searching edges path after ∧ done ⊆ after ∧ targets ⊆ after
  | .error walk => RoundTrip edges walk

/-- What is done with one of the positions that the end of a path leads to. -/
def visit (edges : Nat → List Nat) (steps : Nat) (path done : List Nat) (target : Nat) :
    Except (List Nat) (List Nat) :=
  if path.contains target then .error (wayRound path target)
  else if done.contains target then .ok done
  else (follow edges steps (target :: path) done).map (target :: ·)

theorem follow_succ : follow edges (steps + 1) (target :: path) done =
    (edges target).foldlM (visit edges steps (target :: path)) done := rfl

/-- A position that is visited is passed, closes a way round, or is followed. -/
theorem visit_answers (trail : Trail edges path) (leads : ∀ i ∈ path.head?, Leads edges i target)
    (searching : Searching edges path done)
    (deeper : target ∉ path → Searching edges (target :: path) done →
      Answers edges (target :: path) done (edges target) (follow edges steps (target :: path) done)) :
    Answers edges path done [target] (visit edges steps path done target) := by
  rw [visit]
  split
  · next met => exact trail.wayRound leads (List.contains_iff_mem.mp met)
  · next fresh =>
    split
    · next settled => simpa [Answers] using ⟨searching, List.contains_iff_mem.mp settled⟩
    · next white =>
      simp only [List.contains_iff_mem] at fresh white
      have answers := deeper fresh
        ⟨searching.settled, List.forall_mem_cons.mpr ⟨white, searching.apart⟩⟩
      cases h : follow edges steps (target :: path) done with
      | error walk =>
        rw [h] at answers
        exact answers
      | ok after =>
        rw [h] at answers
        obtain ⟨⟨settled, apart⟩, kept, followed⟩ := answers
        have black : target ∉ after := apart target List.mem_cons_self
        refine ⟨⟨⟨black, followed, settled⟩, fun i member => ?_⟩, ?_, by simp⟩
        · have other : i ≠ target := fun h => fresh (h ▸ member)
          simpa [other] using apart i (List.mem_cons_of_mem _ member)
        · exact fun i member => List.mem_cons_of_mem _ (kept member)

/-- One position after the other: each step starts from what the step before it has left. -/
theorem foldlM_answers {step : List Nat → Nat → Except (List Nat) (List Nat)} {targets : List Nat}
    (each : ∀ target ∈ targets, ∀ done, Searching edges path done →
      Answers edges path done [target] (step done target))
    (searching : Searching edges path done) :
    Answers edges path done targets (targets.foldlM step done) := by
  induction targets generalizing done with
  | nil => exact ⟨searching, List.Subset.refl _, List.nil_subset _⟩
  | cons target rest ih =>
    have first := each target List.mem_cons_self done searching
    rw [List.foldlM_cons]
    cases h : step done target with
    | error walk =>
      rw [h] at first
      exact first
    | ok middle =>
      rw [h] at first
      obtain ⟨searching, kept, followed⟩ := first
      have others := ih (fun t member => each t (List.mem_cons_of_mem _ member)) searching
      change Answers edges path done (target :: rest) (rest.foldlM step middle)
      cases hr : rest.foldlM step middle with
      | error walk =>
        rw [hr] at others
        exact others
      | ok after =>
        rw [hr] at others
        obtain ⟨searching, keptOn, followedOn⟩ := others
        refine ⟨searching, List.Subset.trans kept keptOn, ?_⟩
        exact List.cons_subset.mpr ⟨keptOn (followed List.mem_cons_self), followedOn⟩

/-- No path outgrows the steps: a path of `count + 2` positions would have one of them twice. -/
theorem follow_answers (ends : ∀ i, count ≤ i → edges i = []) (trail : Trail edges (target :: path))
    (enough : count + 2 ≤ (target :: path).length + steps)
    (searching : Searching edges (target :: path) done) :
    Answers edges (target :: path) done (edges target) (follow edges steps (target :: path) done) := by
  induction steps generalizing target path done with
  | zero =>
    have bound := trail.length_le ends
    omega
  | succ steps ih =>
    rw [follow_succ]
    refine foldlM_answers (fun next onward done searching => ?_) searching
    have leads : ∀ i ∈ (target :: path).head?, Leads edges i next := by simpa [Leads] using onward
    refine visit_answers trail leads searching fun fresh searching => ?_
    exact ih (trail.cons leads fresh) (by simp only [List.length_cons] at enough ⊢; omega) searching

theorem foldlM_congr {σ α ε : Type} {f g : σ → α → Except ε σ} {l : List α}
    (same : ∀ a ∈ l, ∀ s, f s a = g s a) (s : σ) : l.foldlM f s = l.foldlM g s := by
  induction l generalizing s with
  | nil => rfl
  | cons a rest ih =>
    rw [List.foldlM_cons, List.foldlM_cons, same a List.mem_cons_self s]
    exact bind_congr fun s => ih (fun b member => same b (List.mem_cons_of_mem _ member)) s

/-- The steps never run out: with more of them the search is the same. -/
theorem follow_steps {more : Nat} (ends : ∀ i, count ≤ i → edges i = [])
    (trail : Trail edges (target :: path)) (enough : count + 2 ≤ (target :: path).length + steps)
    (larger : steps ≤ more) :
    follow edges more (target :: path) done = follow edges steps (target :: path) done := by
  induction steps generalizing more target path done with
  | zero =>
    have bound := trail.length_le ends
    omega
  | succ steps ih =>
    obtain ⟨more, rfl⟩ : ∃ n, more = n + 1 := ⟨more - 1, by omega⟩
    rw [follow_succ, follow_succ]
    refine foldlM_congr (fun next onward done => ?_) done
    have leads : ∀ i ∈ (target :: path).head?, Leads edges i next := by simpa [Leads] using onward
    rw [visit, visit]
    split
    · rfl
    · next fresh =>
      rw [List.contains_iff_mem] at fresh
      rw [ih (trail.cons leads fresh) (by simp only [List.length_cons] at enough ⊢; omega) (by omega)]

theorem cycle?_eq : cycle? edges count =
    match (List.range count).foldlM (visit edges (count + 1) []) [] with
    | .ok _ => none
    | .error walk => some walk := rfl

/-- The search of all positions settles them or finds a way round. -/
theorem search_answers (ends : ∀ i, count ≤ i → edges i = []) :
    Answers edges [] [] (List.range count) ((List.range count).foldlM (visit edges (count + 1) []) []) := by
  refine foldlM_answers (fun start _ done searching => ?_) ⟨trivial, by simp⟩
  refine visit_answers .nil (by simp) searching fun fresh searching => ?_
  exact follow_answers ends (Trail.nil.cons (by simp) fresh) (by simp; omega) searching

/-- What the search finds is a way round. -/
theorem roundTrip_of_cycle? (ends : ∀ i, count ≤ i → edges i = [])
    (found : cycle? edges count = some walk) : RoundTrip edges walk := by
  have answers := search_answers ends
  rw [cycle?_eq] at found
  split at found
  · contradiction
  · next h =>
    cases found
    rw [h] at answers
    exact answers

/-- The search finds a way round just if there is one. -/
theorem cycle?_isSome_iff (ends : ∀ i, count ≤ i → edges i = []) :
    (cycle? edges count).isSome ↔ ∃ i, TransGen (Leads edges) i i := by
  constructor
  · intro found
    obtain ⟨walk, found⟩ := Option.isSome_iff_exists.mp found
    exact (roundTrip_of_cycle? ends found).reaches
  · rintro ⟨i, round⟩
    by_contra none
    have answers := search_answers ends
    rw [cycle?_eq] at none
    cases h : (List.range count).foldlM (visit edges (count + 1) []) [] with
    | error walk => simp [h] at none
    | ok after =>
      rw [h] at answers
      obtain ⟨searching, _, followed⟩ := answers
      have inside : i < count := by
        by_contra beyond
        obtain ⟨next, leads, _⟩ := TransGen.head'_iff.mp round
        rw [Leads, ends i (by omega)] at leads
        contradiction
      exact searching.settled.acyclic (followed (List.mem_range.mpr inside)) round

end Colloquy.Rules
