import Colloquy.Proofs.Text.Runs
import Colloquy.Text.Character

/-! Texts that differ in nothing but the blanks that their gaps are made of. -/

namespace Colloquy.Text

/-- Whether two texts have the same solid characters, and gaps between the same ones of them, which may be
of other blanks and of other widths. -/
inductive Respaced : List Char → List Char → Prop
  | nil : Respaced [] []
  | solid {c : Char} {a b : List Char} (solid : isBlank c = false) (rest : Respaced a b) :
    Respaced (c :: a) (c :: b)
  | gap {g g' a b : List Char} (nonempty : g ≠ []) (nonempty' : g' ≠ [])
    (blank : ∀ c ∈ g, isBlank c = true) (blank' : ∀ c ∈ g', isBlank c = true) (rest : Respaced a b) :
    Respaced (g ++ a) (g' ++ b)

namespace Respaced

variable {a b a' b' g g' : List Char}

theorem append (first : Respaced a b) (second : Respaced a' b') : Respaced (a ++ a') (b ++ b') := by
  induction first with
  | nil => exact second
  | solid solid _ ih => exact .solid solid ih
  | gap nonempty nonempty' blank blank' _ ih =>
    rw [List.append_assoc, List.append_assoc]
    exact .gap nonempty nonempty' blank blank' ih

theorem refl (a : List Char) : Respaced a a := by
  induction a with
  | nil => exact .nil
  | cons c a ih =>
    cases blank : isBlank c with
    | false => exact .solid blank ih
    | true =>
      have one : ∀ d ∈ [c], isBlank d = true := by simpa using blank
      exact .gap (List.cons_ne_nil c []) (List.cons_ne_nil c []) one one ih

/-- Gaps are both empty, or neither is. -/
theorem gaps (blank : ∀ c ∈ g, isBlank c = true) (blank' : ∀ c ∈ g', isBlank c = true)
    (alike : g = [] ↔ g' = []) : Respaced g g' := by
  by_cases empty : g = []
  · rw [empty, alike.mp empty]
    exact .nil
  · have gap := Respaced.gap empty (mt alike.mpr empty) blank blank' .nil
    rwa [List.append_nil, List.append_nil] at gap

theorem reverse (same : Respaced a b) : Respaced a.reverse b.reverse := by
  induction same with
  | nil => exact .nil
  | @solid c a b solid _ ih =>
    rw [List.reverse_cons, List.reverse_cons]
    exact ih.append (refl [c])
  | @gap g g' a b nonempty nonempty' blank blank' _ ih =>
    have last : Respaced g.reverse g'.reverse :=
      gaps (by simpa using blank) (by simpa using blank') (by simp [nonempty, nonempty'])
    rw [List.reverse_append, List.reverse_append]
    exact ih.append last

/-- A solid character stands first in both texts or in neither. -/
theorem head? {c : Char} (solid : isBlank c = false) (same : Respaced a b) :
    a.head? = some c ↔ b.head? = some c := by
  have begins (g a : List Char) (nonempty : g ≠ []) (blank : ∀ d ∈ g, isBlank d = true) :
      (g ++ a).head? ≠ some c := by
    obtain ⟨d, g, rfl⟩ := List.exists_cons_of_ne_nil nonempty
    intro found
    cases found
    simp [solid] at blank
  cases same with
  | nil => exact Iff.rfl
  | solid _ _ => exact Iff.rfl
  | @gap g g' a b nonempty nonempty' blank blank' _ =>
    exact iff_of_false (begins g a nonempty blank) (begins g' b nonempty' blank')

/-- After the blanks at the start come the same character and texts that differ in their gaps only, or
nothing. -/
theorem dropWhile (same : Respaced a b) :
    a.dropWhile isBlank = [] ∧ b.dropWhile isBlank = [] ∨ ∃ c more more',
      a.dropWhile isBlank = c :: more ∧ b.dropWhile isBlank = c :: more' ∧ Respaced more more' := by
  induction same with
  | nil => exact .inl ⟨rfl, rfl⟩
  | solid solid rest _ =>
    exact .inr ⟨_, _, _, List.dropWhile_cons_of_neg (by simp [solid]),
      List.dropWhile_cons_of_neg (by simp [solid]), rest⟩
  | gap _ _ blank blank' _ ih =>
    rwa [List.dropWhile_append_of_pos blank, List.dropWhile_append_of_pos blank']

end Respaced

/-! Runs. -/

/-- Whether two runs are both gaps, or the same solid characters. -/
def Run.Alike (r s : Run Bool) : Prop := r.kind = s.kind ∧ (r.kind = false → r.chars = s.chars)

/-- Blanks at the start make one run with those that follow them. -/
theorem runs_blanks {g : List Char} (nonempty : g ≠ []) (blank : ∀ c ∈ g, isBlank c = true)
    (a : List Char) : ∃ chars, runs isBlank (g ++ a) = ⟨true, chars⟩ ::
      bif (runs isBlank a).head?.any Run.kind then (runs isBlank a).tail else runs isBlank a := by
  induction g with
  | nil => contradiction
  | cons c g ih =>
    obtain ⟨first, blank⟩ := List.forall_mem_cons.mp blank
    rw [List.cons_append, runs]
    cases g with
    | nil =>
      rw [List.nil_append]
      cases runs isBlank a with
      | nil => exact ⟨[c], by simp [first]⟩
      | cons r more =>
        obtain ⟨kind, chars⟩ := r
        cases kind with
        | true => exact ⟨c :: chars, by simp [first]⟩
        | false => exact ⟨[c], by simp [first]⟩
    | cons d g =>
      obtain ⟨chars, later⟩ := ih (List.cons_ne_nil d g) blank
      rw [later]
      exact ⟨c :: chars, if_pos first.symm⟩

namespace Respaced

variable {a b : List Char}

/-- Texts that differ in their gaps have alike runs. -/
theorem runs (same : Respaced a b) :
    List.Forall₂ Run.Alike (runs isBlank a) (runs isBlank b) := by
  induction same with
  | nil => exact .nil
  | @solid c a b solid _ ih =>
    rw [Text.runs, Text.runs]
    generalize Text.runs isBlank a = rs, Text.runs isBlank b = ss at ih
    cases ih with
    | nil => exact .cons ⟨rfl, fun _ => rfl⟩ .nil
    | @cons r s _ _ first others =>
      dsimp only
      rw [← first.1]
      by_cases joins : r.kind = isBlank c
      · rw [if_pos joins, if_pos joins]
        exact .cons ⟨rfl, fun kind => by rw [first.2 kind]⟩ others
      · rw [if_neg joins, if_neg joins]
        exact .cons ⟨rfl, fun _ => rfl⟩ (.cons first others)
  | @gap g g' a b nonempty nonempty' blank blank' _ ih =>
    obtain ⟨chars, begins⟩ := runs_blanks nonempty blank a
    obtain ⟨chars', begins'⟩ := runs_blanks nonempty' blank' b
    rw [begins, begins']
    refine .cons ⟨rfl, fun solid => Bool.noConfusion solid⟩ ?_
    generalize Text.runs isBlank a = rs, Text.runs isBlank b = ss at ih
    cases ih with
    | nil => exact .nil
    | @cons r s _ _ first others =>
      simp only [List.head?_cons, Option.any_some, List.tail_cons, ← first.1]
      cases r.kind with
      | true => exact others
      | false => exact .cons first others

/-- The solid runs may be replaced, each by what its characters call for. -/
theorem flatMap_runs (replacement : List Char → List Char) (same : Respaced a b) :
    Respaced ((Text.runs isBlank a).flatMap fun r => if r.kind then r.chars else replacement r.chars)
      ((Text.runs isBlank b).flatMap fun r => if r.kind then r.chars else replacement r.chars) := by
  have maximal := maximal_runs isBlank a
  have maximal' := maximal_runs isBlank b
  have alike := same.runs
  generalize Text.runs isBlank a = rs, Text.runs isBlank b = ss at alike maximal maximal'
  induction alike with
  | nil => exact .nil
  | @cons r s rs ss first _ ih =>
    rw [List.flatMap_cons, List.flatMap_cons]
    refine append ?_ (ih maximal.tail maximal'.tail)
    cases kind : r.kind with
    | false =>
      rw [← first.1, kind, first.2 kind]
      exact refl _
    | true =>
      have kind' : s.kind = true := first.1.symm.trans kind
      have blank := maximal.solid r List.mem_cons_self
      have blank' := maximal'.solid s List.mem_cons_self
      rw [kind] at blank
      rw [kind'] at blank' ⊢
      exact gaps blank blank' (iff_of_false (maximal.nonempty r List.mem_cons_self)
        (maximal'.nonempty s List.mem_cons_self))

end Respaced
end Colloquy.Text
