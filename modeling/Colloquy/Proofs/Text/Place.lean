import Colloquy.Text.Cursor

/-! Places in a text, by number. -/

namespace Colloquy.Text

variable {text : List Char} {test : Char → Bool} {i j : Nat}

/-- The place after `i` characters. -/
def placeAt (text : List Char) (i : Nat) : Cursor := ⟨(text.take i).reverse, text.drop i⟩

/-- The place after some more characters. -/
theorem placeAt_append {taken left : List Char} (after : text.drop i = taken ++ left) :
    placeAt text (i + taken.length) = ⟨taken.reverse ++ (text.take i).reverse, left⟩ := by
  rw [placeAt, List.take_add, after, List.take_left', ← List.drop_drop, after, List.drop_left',
    List.reverse_append]
  all_goals rfl

/-- Whether the characters between two places pass a test. -/
structure Passes (test : Char → Bool) (text : List Char) (i j : Nat) : Prop where
  ordered : i ≤ j
  inside : j ≤ text.length
  all : ∀ n c, i ≤ n → n < j → text[n]? = some c → test c = true

theorem Passes.here (inside : i ≤ text.length) : Passes test text i i :=
  ⟨Nat.le_refl i, inside, fun _ _ above below _ => absurd above (Nat.not_le.mpr below)⟩

theorem passes_iff {c : Char} (next : text[i]? = some c) :
    Passes test text i j ↔ j = i ∨ test c = true ∧ Passes test text (i + 1) j := by
  have inside : i < text.length := (List.getElem?_eq_some_iff.mp next).1
  constructor
  · intro passes
    rcases Nat.eq_or_lt_of_le passes.ordered with same | later
    · exact .inl same.symm
    · exact .inr ⟨passes.all i c (Nat.le_refl i) later next,
        later, passes.inside, fun n x above => passes.all n x (Nat.le_of_succ_le above)⟩
  · rintro (rfl | ⟨passed, passes⟩)
    · exact .here (Nat.le_of_lt inside)
    · refine ⟨Nat.le_of_succ_le passes.ordered, passes.inside, fun n x above below found => ?_⟩
      rcases Nat.eq_or_lt_of_le above with rfl | later
      · rw [next] at found
        exact Option.some.inj found ▸ passed
      · exact passes.all n x later below found

/-- The first place from `i` on that has no blank after it. -/
def pastBlanks (text : List Char) (i : Nat) : Nat := i + ((text.drop i).takeWhile isBlank).length

theorem pastBlanks_passes (inside : i ≤ text.length) :
    Passes isBlank text i (pastBlanks text i) := by
  have split := List.takeWhile_append_dropWhile (p := isBlank) (l := text.drop i)
  have lengths := congrArg List.length split
  rw [List.length_append, List.length_drop] at lengths
  refine ⟨Nat.le_add_right _ _, by rw [pastBlanks]; omega, fun n c above below found => ?_⟩
  have within : n - i < ((text.drop i).takeWhile isBlank).length := by
    rw [pastBlanks] at below
    omega
  have taken : (text.drop i)[n - i]? = some c := by
    rw [List.getElem?_drop, Nat.add_sub_cancel' above, found]
  rw [← split, List.getElem?_append_left within] at taken
  exact List.all_eq_true.mp List.all_takeWhile c (List.mem_of_getElem? taken)

theorem not_blank_pastBlanks {c : Char} (next : text[pastBlanks text i]? = some c) :
    isBlank c = false := by
  have split := List.takeWhile_append_dropWhile (p := isBlank) (l := text.drop i)
  have ends := List.head?_dropWhile_not isBlank (text.drop i)
  have first : ((text.drop i).dropWhile isBlank).head? = some c := by
    rw [List.head?_eq_getElem?, ← Nat.sub_self ((text.drop i).takeWhile isBlank).length,
      ← List.getElem?_append_right (Nat.le_refl _), split, List.getElem?_drop]
    exact next
  rwa [first] at ends

/-- The first place without a blank after it, from a place on: all before it are blanks. -/
theorem pastBlanks_eq_iff (inside : i ≤ text.length) : pastBlanks text i = j ↔
    Passes isBlank text i j ∧ ∀ c, text[j]? = some c → isBlank c = false := by
  constructor
  · rintro rfl
    exact ⟨pastBlanks_passes inside, fun c => not_blank_pastBlanks⟩
  · rintro ⟨passes, ends⟩
    have reached := pastBlanks_passes inside
    rcases Nat.lt_trichotomy (pastBlanks text i) j with short | same | long
    · have next := List.getElem?_eq_getElem (Nat.lt_of_lt_of_le short passes.inside)
      have blank := passes.all _ _ reached.ordered short next
      rw [not_blank_pastBlanks next] at blank
      contradiction
    · exact same
    · have next := List.getElem?_eq_getElem (Nat.lt_of_lt_of_le long reached.inside)
      have blank := reached.all _ _ passes.ordered long next
      rw [ends _ next] at blank
      contradiction

theorem pastBlanks_of_passes (passes : Passes isBlank text i j) :
    pastBlanks text i = pastBlanks text j := by
  have reached := pastBlanks_passes passes.inside
  refine (pastBlanks_eq_iff (Nat.le_trans passes.ordered passes.inside)).mpr ⟨⟨?_, ?_, ?_⟩, ?_⟩
  · exact Nat.le_trans passes.ordered reached.ordered
  · exact reached.inside
  · intro n c above below found
    rcases Nat.lt_or_ge n j with early | late
    · exact passes.all n c above early found
    · exact reached.all n c late below found
  · exact fun c => not_blank_pastBlanks

theorem pastBlanks_pastBlanks (inside : i ≤ text.length) :
    pastBlanks text (pastBlanks text i) = pastBlanks text i :=
  (pastBlanks_of_passes (pastBlanks_passes inside)).symm

theorem pastBlanks_mono (ordered : i ≤ j) (inside : j ≤ text.length) :
    pastBlanks text i ≤ pastBlanks text j := by
  have reached := pastBlanks_passes (Nat.le_trans ordered inside)
  rcases Nat.lt_or_ge j (pastBlanks text i) with within | beyond
  · have passes : Passes isBlank text i j := ⟨ordered, inside, fun n c above below =>
      reached.all n c above (Nat.lt_trans below within)⟩
    exact Nat.le_of_eq (pastBlanks_of_passes passes)
  · exact Nat.le_trans beyond (pastBlanks_passes inside).ordered

end Colloquy.Text
