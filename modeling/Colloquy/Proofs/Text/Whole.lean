import Mathlib.Data.List.Basic
import Colloquy.Proofs.Text.Character
import Colloquy.Proofs.Text.Spacing

/-! Words that stand in a text as a whole. Where a text is cut next to a character of no word, a word
stands in one of the two parts if it stands in the whole. -/

namespace Colloquy.Text

variable {word text a b : List Char} {c d : Char}

/-- Whether a word stands somewhere in a text with no word character next to it. -/
def StandsWhole (word text : List Char) : Prop :=
  ∃ a b, text = a ++ word ++ b ∧ a.getLast?.any isWord = false ∧ b.head?.any isWord = false

theorem isWord_of_mem_getLast? {l : List Char} (all : ∀ c ∈ l, isWord c = true) (some_ : l ≠ []) :
    l.getLast?.any isWord = true := by
  rw [List.getLast?_eq_some_getLast some_]
  exact all _ (List.getLast_mem some_)

theorem isWord_of_mem_head? {l : List Char} (all : ∀ c ∈ l, isWord c = true) (some_ : l ≠ []) :
    l.head?.any isWord = true := by
  rw [List.head?_eq_some_head some_]
  exact all _ (List.head_mem some_)

section

variable (all : ∀ c ∈ word, isWord c = true) (some_ : word ≠ [])

include all some_

/-- A word that stands whole in a text stands whole in a longer one, if no word goes on where it is cut.
-/
theorem StandsWhole.append_left (inside : StandsWhole word a)
    (apart : a.getLast?.any isWord = false ∨ b.head?.any isWord = false) : StandsWhole word (a ++ b) := by
  obtain ⟨p, q, rfl, before, after⟩ := inside
  refine ⟨p, q ++ b, by simp, before, ?_⟩
  cases q with
  | cons x q => exact after
  | nil =>
    refine apart.resolve_left fun last => ?_
    rw [List.append_nil, List.getLast?_append_of_ne_nil _ some_, isWord_of_mem_getLast? all some_] at last
    contradiction

theorem StandsWhole.append_right (inside : StandsWhole word b)
    (apart : a.getLast?.any isWord = false ∨ b.head?.any isWord = false) : StandsWhole word (a ++ b) := by
  obtain ⟨p, q, rfl, before, after⟩ := inside
  refine ⟨a ++ p, q, by simp, ?_, after⟩
  by_cases nothing : p = []
  · subst nothing
    rw [List.append_nil]
    refine apart.resolve_right fun first => ?_
    rw [List.nil_append, List.head?_append_of_ne_nil _ some_, isWord_of_mem_head? all some_] at first
    contradiction
  · rwa [List.getLast?_append_of_ne_nil _ nothing]

/-- A word stands whole in a text just if it does in one of two parts, if no word goes on where the text
is cut: a word that begins before the cut ends there, or the characters next to the cut are its own. -/
theorem standsWhole_append (apart : a.getLast?.any isWord = false ∨ b.head?.any isWord = false) :
    StandsWhole word (a ++ b) ↔ StandsWhole word a ∨ StandsWhole word b := by
  constructor
  · rintro ⟨p, q, same, before, after⟩
    rw [List.append_assoc] at same
    rcases List.append_eq_append_iff.mp same with ⟨r, rfl, right⟩ | ⟨r, rfl, right⟩
    · refine .inr ⟨r, q, by rw [right, List.append_assoc], ?_, after⟩
      cases r with
      | nil => rfl
      | cons x r => rwa [List.getLast?_append_of_ne_nil _ (List.cons_ne_nil x r)] at before
    · rcases List.append_eq_append_iff.mp right with ⟨s, rfl, rest⟩ | ⟨s, parts, rest⟩
      · refine .inl ⟨p, s, by rw [List.append_assoc], before, ?_⟩
        cases s with
        | nil => rfl
        | cons x s => simpa [rest] using after
      · by_cases begins : r = []
        · subst begins
          exact .inr ⟨[], q, by simp [rest, parts], rfl, after⟩
        by_cases ends : s = []
        · subst ends
          exact .inl ⟨p, [], by simp [parts], before, rfl⟩
        have own : ∀ c ∈ r ++ s, isWord c = true := parts ▸ all
        rw [List.getLast?_append_of_ne_nil _ begins, rest, List.head?_append_of_ne_nil _ ends,
          isWord_of_mem_getLast? (fun c member => own c (by simp [member])) begins,
          isWord_of_mem_head? (fun c member => own c (by simp [member])) ends] at apart
        simp at apart
  · rintro (inside | inside)
    · exact inside.append_left all some_ apart
    · exact inside.append_right all some_ apart

theorem standsWhole_cons (solid : isWord c = false) :
    StandsWhole word (c :: text) ↔ StandsWhole word text := by
  have alone : ¬StandsWhole word [c] := by
    rintro ⟨p, q, same, _, _⟩
    have member : ∀ d ∈ word, d ∈ [c] := by
      rw [same]
      simp +contextual
    obtain ⟨d, more, rfl⟩ := List.exists_cons_of_ne_nil some_
    have own := all d List.mem_cons_self
    rw [List.mem_singleton.mp (member d List.mem_cons_self), solid] at own
    contradiction
  rw [← List.singleton_append, standsWhole_append all some_ (.inl (by simp [solid]))]
  simp [alone]

/-- Characters that belong to no word may be left out at the start. -/
theorem standsWhole_append_solid (solid : ∀ c ∈ a, isWord c = false) :
    StandsWhole word (a ++ b) ↔ StandsWhole word b := by
  induction a with
  | nil => rfl
  | cons c a ih =>
    obtain ⟨first, solid⟩ := List.forall_mem_cons.mp solid
    rw [List.cons_append, standsWhole_cons all some_ first, ih solid]

omit all some_ in
/-- In a text of word characters the only word that stands as a whole is the text. -/
theorem eq_of_standsWhole (whole : StandsWhole word text) (words : ∀ c ∈ text, isWord c = true) :
    word = text := by
  obtain ⟨p, q, rfl, before, after⟩ := whole
  have none_ : ∀ l : List Char, (∀ c ∈ l, isWord c = true) →
      l.getLast?.any isWord = false ∨ l.head?.any isWord = false → l = [] := by
    intro l own apart
    by_contra some_
    rw [isWord_of_mem_getLast? own some_, isWord_of_mem_head? own some_] at apart
    simp at apart
  rw [none_ p (fun c member => words c (by simp [member])) (.inl before),
    none_ q (fun c member => words c (by simp [member])) (.inr after)]
  simp

end

/-- A word that stands in a run as a whole does so in the text, if of two characters of different kinds
one is no word character. -/
theorem StandsWhole.of_mem {κ : Type} {kind : Char → κ} {rs : List (Run κ)} {r : Run κ}
    (edge : ∀ c d, kind c ≠ kind d → isWord c = false ∨ isWord d = false)
    (all : ∀ c ∈ word, isWord c = true) (some_ : word ≠ []) (maximal : Maximal kind rs) (member : r ∈ rs)
    (inside : StandsWhole word r.chars) : StandsWhole word (unruns rs) := by
  induction rs with
  | nil => contradiction
  | cons s rs ih =>
    have apart : s.chars.getLast?.any isWord = false ∨ (unruns rs).head?.any isWord = false := by
      cases rs with
      | nil => exact .inr rfl
      | cons t rest =>
        obtain ⟨c, more, chars, first⟩ := maximal.tail.exists_cons
        have nonempty := maximal.nonempty s List.mem_cons_self
        have last := maximal.solid s List.mem_cons_self _ (List.getLast_mem nonempty)
        rw [List.getLast?_eq_some_getLast nonempty, unruns_cons, chars]
        refine edge _ c fun same => maximal.head_ne t rfl ?_
        rw [← last, same, first]
    rw [unruns_cons]
    rcases List.mem_cons.mp member with rfl | later
    · exact inside.append_left all some_ apart
    · exact (ih maximal.tail later).append_right all some_ apart

theorem isWord_evenBlank (c : Char) : isWord (evenBlank c) = isWord c := by
  rw [evenBlank]
  split
  · next blank => rw [isWord_of_isBlank blank]; rfl
  · rfl

/-- Collapsing brings no word to stand as a whole. -/
theorem StandsWhole.of_collapse (all : ∀ c ∈ word, isWord c = true)
    (whole : StandsWhole word (collapse text)) : StandsWhole word text := by
  obtain ⟨a, b, collapsed, before, after⟩ := whole
  have solid : ∀ c ∈ word, isBlank c = false := fun c member => isBlank_of_isWord (all c member)
  obtain ⟨a', b', same, left, right⟩ := infix_of_collapse solid collapsed
  have alike (o : Option Char) : (o.map evenBlank).any isWord = o.any isWord := by
    cases o <;> simp [isWord_evenBlank]
  refine ⟨a', b', same, ?_, ?_⟩
  · rw [← alike, left, alike, before]
  · rw [← alike, right, alike, after]

end Colloquy.Text
