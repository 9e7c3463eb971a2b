/-! Texts as sequences of runs: neighbouring characters of one kind, as many as there are. -/

namespace Colloquy.Text

/-- Neighbouring characters of one kind. -/
structure Run (κ : Type) where
  kind : κ
  chars : List Char
deriving DecidableEq

/-- The longest runs of a text, in order. -/
def runs {κ : Type} [DecidableEq κ] (kind : Char → κ) : List Char → List (Run κ)
  | [] => []
  | c :: rest =>
    match runs kind rest with
    | [] => [⟨kind c, [c]⟩]
    | r :: more =>
      if r.kind = kind c then ⟨r.kind, c :: r.chars⟩ :: more
      else ⟨kind c, [c]⟩ :: r :: more

def unruns {κ : Type} (rs : List (Run κ)) : List Char := rs.flatMap Run.chars

theorem unruns_runs {κ : Type} [DecidableEq κ] (kind : Char → κ) (text : List Char) :
    unruns (runs kind text) = text := by
  induction text with
  | nil => rfl
  | cons c rest ih =>
    rw [runs]
    split
    · next h => rw [h] at ih; simpa [unruns] using ih
    · next r more h =>
      rw [h] at ih
      split <;> simpa [unruns] using ih

end Colloquy.Text
