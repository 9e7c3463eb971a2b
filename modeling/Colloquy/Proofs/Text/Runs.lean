import Mathlib.Data.List.Basic
import Mathlib.Data.List.Chain
import Colloquy.Text.Run

/-! Runs cut a text into pieces of one kind each, of which no two neighbours are of the same kind. -/

namespace Colloquy.Text

section

variable {κ : Type} {kind : Char → κ} {r : Run κ} {rs : List (Run κ)}

/-- Pieces of one kind each that are as long as they can be. -/
structure Maximal (kind : Char → κ) (rs : List (Run κ)) : Prop where
  nonempty : ∀ r ∈ rs, r.chars ≠ []
  solid : ∀ r ∈ rs, ∀ c ∈ r.chars, kind c = r.kind
  apart : rs.IsChain (·.kind ≠ ·.kind)

theorem Maximal.tail (maximal : Maximal kind (r :: rs)) : Maximal kind rs where
  nonempty s member := maximal.nonempty s (List.mem_cons_of_mem r member)
  solid s member := maximal.solid s (List.mem_cons_of_mem r member)
  apart := maximal.apart.tail

theorem Maximal.head_ne (maximal : Maximal kind (r :: rs)) : ∀ s ∈ rs.head?, r.kind ≠ s.kind :=
  (List.isChain_cons.mp maximal.apart).1

/-- A run has a first character, which is of its kind. -/
theorem Maximal.exists_cons (maximal : Maximal kind (r :: rs)) :
    ∃ c more, r.chars = c :: more ∧ kind c = r.kind := by
  have nonempty := maximal.nonempty r List.mem_cons_self
  have solid := maximal.solid r List.mem_cons_self
  cases chars : r.chars with
  | nil => contradiction
  | cons c more => exact ⟨c, more, rfl, solid c (by simp [chars])⟩

theorem unruns_cons : unruns (r :: rs) = r.chars ++ unruns rs := rfl

end

variable {κ : Type} [DecidableEq κ] {kind : Char → κ} {text a b : List Char} {r : Run κ} {k : κ}
  {rs : List (Run κ)}

/-- The runs of a text are as long as they can be. -/
theorem maximal_runs (kind : Char → κ) (text : List Char) : Maximal kind (runs kind text) := by
  induction text with
  | nil => exact ⟨by simp [runs], by simp [runs], .nil⟩
  | cons c rest ih =>
    rw [runs]
    cases others : runs kind rest with
    | nil => exact ⟨by simp, by simp, .singleton _⟩
    | cons r more =>
      rw [others] at ih
      dsimp only
      by_cases same : r.kind = kind c
      · rw [if_pos same]
        have joined : ∀ d ∈ c :: r.chars, kind d = r.kind := by
          intro d member
          rcases List.mem_cons.mp member with rfl | member
          · exact same.symm
          · exact ih.solid r List.mem_cons_self d member
        constructor
        · intro s member
          rcases List.mem_cons.mp member with rfl | member
          · exact List.cons_ne_nil c r.chars
          · exact ih.tail.nonempty s member
        · intro s member
          rcases List.mem_cons.mp member with rfl | member
          · exact joined
          · exact ih.tail.solid s member
        · exact List.isChain_cons.mpr ⟨ih.head_ne, ih.tail.apart⟩
      · rw [if_neg same]
        constructor
        · intro s member
          rcases List.mem_cons.mp member with rfl | member
          · exact List.cons_ne_nil c []
          · exact ih.nonempty s member
        · intro s member
          rcases List.mem_cons.mp member with rfl | member
          · simp
          · exact ih.solid s member
        · exact List.isChain_cons.mpr ⟨by simpa using Ne.symm same, ih.apart⟩

/-- A piece of one kind joins no run of what follows, if that begins with another kind. -/
theorem runs_piece (nonempty : a ≠ []) (solid : ∀ c ∈ a, kind c = k)
    (apart : ∀ s ∈ (runs kind b).head?, k ≠ s.kind) :
    runs kind (a ++ b) = ⟨k, a⟩ :: runs kind b := by
  induction a with
  | nil => contradiction
  | cons c a ih =>
    obtain ⟨rfl, solid⟩ := List.forall_mem_cons.mp solid
    rw [List.cons_append, runs]
    cases a with
    | nil =>
      cases others : runs kind b with
      | nil => simp [others]
      | cons s more =>
        have other : s.kind ≠ kind c := Ne.symm (apart s (by simp [others]))
        simp [others, other]
    | cons d a =>
      rw [ih (List.cons_ne_nil d a) solid]
      exact if_pos rfl

theorem runs_eq_singleton (nonempty : text ≠ []) (all : ∀ c ∈ text, kind c = k) :
    runs kind text = [⟨k, text⟩] := by
  simpa [runs] using runs_piece (b := []) nonempty all (by simp [runs])

theorem exists_runs_cons (kind : Char → κ) (c : Char) (rest : List Char) :
    ∃ more others, runs kind (c :: rest) = ⟨kind c, c :: more⟩ :: others := by
  rw [runs]
  split
  · exact ⟨[], [], rfl⟩
  · next r others _ =>
    split
    · next same => exact ⟨r.chars, others, by rw [same]⟩
    · exact ⟨[], r :: others, rfl⟩

theorem chars_isInfix_of_mem_runs (member : r ∈ runs kind text) : r.chars <:+: text := by
  conv_rhs => rw [← unruns_runs kind text]
  exact List.infix_of_mem_flatten (List.mem_map_of_mem member)

/-- A run has its first character, and that is of its kind. -/
theorem exists_of_mem_runs (member : r ∈ runs kind text) : ∃ c ∈ r.chars, kind c = r.kind := by
  have maximal := maximal_runs kind text
  obtain ⟨c, more, chars⟩ := List.exists_cons_of_ne_nil (maximal.nonempty r member)
  have own : c ∈ r.chars := by rw [chars]; exact List.mem_cons_self
  exact ⟨c, own, maximal.solid r member c own⟩

end Colloquy.Text
