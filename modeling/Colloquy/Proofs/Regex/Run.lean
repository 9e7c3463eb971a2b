import Colloquy.Proofs.Text.Place
import Colloquy.Regex.Match
import Mathlib.Data.Nat.Init
import Mathlib.Tactic.ByContra

/-! How long a run of characters is: as long as it can be while what follows it is matched. -/

namespace Colloquy.Regex

open Text

variable {text before after : List Char} {test : CharTest}

section

variable {k : List Char → List Char → Option Progress}

theorem runFrom_cons (c : Char) : runFrom test k 0 none before (c :: after) =
    if test.accepts c then (runFrom test k 0 none (c :: before) after).or (k before (c :: after))
    else k before (c :: after) := by
  simp only [runFrom, reduceCtorEq, ne_eq, not_false_eq_true, true_and, if_true, Option.map_none,
    Nat.zero_sub]
  split
  · cases runFrom test k 0 none (c :: before) after <;> rfl
  · rfl

/-- A run matches just if what follows does after some characters that pass the test. -/
theorem runFrom_isSome_iff : (runFrom test k 0 none before after).isSome ↔
    ∃ taken more, after = taken ++ more ∧ (∀ c ∈ taken, test.accepts c) ∧
      (k (taken.reverse ++ before) more).isSome := by
  induction after generalizing before with
  | nil =>
    constructor
    · intro here
      exact ⟨[], [], rfl, by simp, here⟩
    · rintro ⟨taken, more, split, _, here⟩
      obtain ⟨rfl, rfl⟩ := List.append_eq_nil_iff.mp split.symm
      exact here
  | cons c after ih =>
    rw [runFrom_cons]
    constructor
    · intro found
      split at found
      · next accepted =>
        rw [Option.isSome_or, Bool.or_eq_true, ih] at found
        rcases found with ⟨taken, more, rfl, all, here⟩ | here
        · exact ⟨c :: taken, more, rfl, by simpa using ⟨accepted, all⟩, by simpa using here⟩
        · exact ⟨[], c :: after, rfl, by simp, here⟩
      · exact ⟨[], c :: after, rfl, by simp, found⟩
    · rintro ⟨taken, more, split, all, here⟩
      cases taken with
      | nil =>
        cases split
        split
        · rw [Option.isSome_or, Bool.or_eq_true]
          exact .inr here
        · exact here
      | cons x taken =>
        obtain ⟨rfl, rfl⟩ := List.cons.inj split
        obtain ⟨accepted, all⟩ := List.forall_mem_cons.mp all
        rw [if_pos accepted, Option.isSome_or, Bool.or_eq_true, ih]
        exact .inl ⟨taken, more, rfl, all, by simpa using here⟩

/-- A run is as long as it can be where nothing but its end lets the rest match. -/
theorem runFrom_full
    (fails : ∀ before c after, test.accepts c = true → k before (c :: after) = none)
    {taken : List Char} (all : ∀ c ∈ taken, test.accepts c = true)
    (ends : ∀ c ∈ after.head?, test.accepts c = false) :
    runFrom test k 0 none before (taken ++ after) = k (taken.reverse ++ before) after := by
  induction taken generalizing before with
  | nil =>
    cases after with
    | nil => rfl
    | cons c after =>
      have refused := ends c rfl
      rw [List.nil_append, runFrom_cons, refused]
      rfl
  | cons c taken ih =>
    obtain ⟨accepted, all⟩ := List.forall_mem_cons.mp all
    rw [List.cons_append, runFrom_cons, if_pos accepted, ih all, fails _ _ _ accepted,
      Option.or_none]
    simp

theorem runFrom_once (c : Char) :
    runFrom test k 1 none before (c :: after) =
      if test.accepts c then runFrom test k 0 none (c :: before) after else none := by
  simp only [runFrom, reduceCtorEq, ne_eq, not_false_eq_true, true_and, Option.map_none,
    Nat.sub_self, Nat.one_ne_zero, if_false]
  split
  · cases runFrom test k 0 none (c :: before) after <;> rfl
  · rfl

end

/-! Runs at places given by number. -/

variable {k : Next} {captures : List (Nat × Span)} {i : Nat} {r : Progress}

/-- A run at a character that passes takes it and goes on, or else ends before it. -/
theorem matchThen_run_next {c : Char} (next : text[i]? = some c) :
    matchThen (.run test 0 none) k ⟨placeAt text i, captures⟩ =
      if test.accepts c then
        (matchThen (.run test 0 none) k ⟨placeAt text (i + 1), captures⟩).or
          (k ⟨placeAt text i, captures⟩)
      else k ⟨placeAt text i, captures⟩ := by
  obtain ⟨inside, found⟩ := List.getElem?_eq_some_iff.mp next
  have after : text.drop i = [c] ++ text.drop (i + 1) := by
    rw [List.drop_eq_getElem_cons inside, found, List.singleton_append]
  have moved : placeAt text (i + 1) = ⟨c :: (text.take i).reverse, text.drop (i + 1)⟩ :=
    placeAt_append after
  simp only [matchThen, moved]
  rw [placeAt, after]
  exact runFrom_cons c

theorem matchThen_run_end :
    matchThen (.run test 0 none) k ⟨placeAt text text.length, captures⟩ =
      k ⟨placeAt text text.length, captures⟩ := by
  simp only [matchThen, placeAt, List.drop_length, runFrom, if_true]

/-- A run matches just if what follows does from a place that the run passes to. By induction from the
end of the text backwards: a run takes a character and goes on, or ends here. -/
theorem matchThen_run_isSome_iff (inside : i ≤ text.length) :
    (matchThen (.run test 0 none) k ⟨placeAt text i, captures⟩).isSome ↔
      ∃ j, Passes test.accepts text i j ∧ (k ⟨placeAt text j, captures⟩).isSome := by
  induction inside using Nat.decreasingInduction with
  | self =>
    rw [matchThen_run_end]
    constructor
    · exact fun found => ⟨_, .here (Nat.le_refl _), found⟩
    · rintro ⟨j, passes, found⟩
      rwa [Nat.le_antisymm passes.ordered passes.inside]
  | of_succ i inside ih =>
    have next := List.getElem?_eq_getElem inside
    simp only [passes_iff next, or_and_right, exists_or, exists_eq_left, matchThen_run_next next]
    split
    · next accepted => simp [ih, accepted, or_comm]
    · next refused => simp [refused]

/-- A run stops at the last place from which the rest is matched. -/
theorem matchThen_run_some (inside : i ≤ text.length)
    (found : matchThen (.run test 0 none) k ⟨placeAt text i, captures⟩ = some r) :
    ∃ j, Passes test.accepts text i j ∧ k ⟨placeAt text j, captures⟩ = some r ∧
      ∀ j', j < j' → Passes test.accepts text j j' → k ⟨placeAt text j', captures⟩ = none := by
  induction inside using Nat.decreasingInduction with
  | self =>
    rw [matchThen_run_end] at found
    exact ⟨_, .here (Nat.le_refl _), found, fun j' later passes =>
      absurd passes.inside (Nat.not_le.mpr later)⟩
  | of_succ i inside ih =>
    have next := List.getElem?_eq_getElem inside
    have stays : Passes test.accepts text i i := .here (Nat.le_of_lt inside)
    rw [matchThen_run_next next] at found
    split at found
    · next accepted =>
      rcases Option.or_eq_some_iff.mp found with further | ⟨nowhere, here⟩
      · obtain ⟨j, passes, reached, last⟩ := ih further
        exact ⟨j, (passes_iff next).mpr (.inr ⟨accepted, passes⟩), reached, last⟩
      · refine ⟨i, stays, here, fun j' later passes => ?_⟩
        obtain ⟨_, passes⟩ := ((passes_iff next).mp passes).resolve_left (Nat.ne_of_gt later)
        by_contra reached
        have further := (matchThen_run_isSome_iff inside).mpr
          ⟨j', passes, Option.isSome_iff_ne_none.mpr reached⟩
        rw [nowhere] at further
        contradiction
    · next refused =>
      refine ⟨i, stays, found, fun j' later passes => ?_⟩
      rcases (passes_iff next).mp passes with same | ⟨accepted, _⟩
      · exact absurd same (Nat.ne_of_gt later)
      · exact absurd accepted refused

end Colloquy.Regex
