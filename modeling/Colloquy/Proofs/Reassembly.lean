import Colloquy.Proofs.Text.Integer
import Colloquy.Reassembly

/-! The numbers in templates: they are made of digits, and only too many of them stop a reply. -/

namespace Colloquy

open Text

namespace Template

variable {digits : List Char}

theorem not_mem_unfinished (held : List Char) : .capture digits ∉ unfinished held := by
  simp [unfinished]

/-- A capture in a template is named by decimal digits. -/
theorem digits_of_mem_piecesFrom {pending : Option (List Char)} {chars : List Char}
    (held : ∀ c ∈ pending.getD [], isDigit c)
    (member : .capture digits ∈ piecesFrom pending chars) :
    digits ≠ [] ∧ ∀ c ∈ digits, isDigit c := by
  fun_induction piecesFrom pending chars with
  | case1 => exact absurd member List.not_mem_nil
  | case2 ds => exact absurd member (not_mem_unfinished ds)
  | case3 rest ih => exact ih (by simp) member
  | case4 c rest _ ih =>
    rcases List.mem_cons.mp member with same | member
    · cases same
    · exact ih (by simp) member
  | case5 ds c rest digit ih =>
    refine ih ?_ member
    simpa using ⟨digit, held⟩
  | case6 ds c rest _ closes ih =>
    rcases List.mem_cons.mp member with same | member
    · cases same
      exact ⟨by simpa using closes.2, by simpa using held⟩
    · exact ih (by simp) member
  | case7 ds rest _ _ ih =>
    rcases List.mem_append.mp member with member | member
    · exact absurd member (not_mem_unfinished ds)
    · exact ih (by simp) member
  | case8 ds c rest _ _ _ ih =>
    rcases List.mem_append.mp member with member | member
    · exact absurd member (not_mem_unfinished ds)
    · rcases List.mem_cons.mp member with same | member
      · cases same
      · exact ih (by simp) member

/-- A number in a template can be read unless it has too many digits. -/
theorem long_of_mem_pieces {template : String} (member : .capture digits ∈ pieces template)
    (unread : natural? digits = none) : digitLimit < digits.length := by
  obtain ⟨some_, all⟩ := digits_of_mem_piecesFrom (by simp) member
  exact long_of_natural?_eq_none some_ all unread

/-- Texts that are there fill a template, unless one of its numbers cannot be read. -/
theorem unread_of_fill_error {text : Nat → Except Breakdown (List Char)}
    (there : ∀ n, ∃ t, text n = .ok t) {ps : List Piece} {b : Breakdown}
    (failed : fill text ps = .error b) :
    b = .badValue ∧ ∃ digits, .capture digits ∈ ps ∧ natural? digits = none := by
  induction ps with
  | nil => contradiction
  | cons p rest ih =>
    have later (failed : fill text rest = .error b) :
        b = .badValue ∧ ∃ digits, .capture digits ∈ p :: rest ∧ natural? digits = none := by
      obtain ⟨same, digits, member, unread⟩ := ih failed
      exact ⟨same, digits, List.mem_cons_of_mem _ member, unread⟩
    cases p with
    | char c =>
      cases filled : fill text rest with
      | error _ =>
        rw [fill, filled] at failed
        cases failed
        exact later filled
      | ok more =>
        rw [fill, filled] at failed
        contradiction
    | capture digits =>
      cases read : natural? digits with
      | none =>
        rw [fill, read] at failed
        cases failed
        exact ⟨rfl, digits, List.mem_cons_self, read⟩
      | some n =>
        obtain ⟨t, answer⟩ := there n
        cases filled : fill text rest with
        | error _ =>
          rw [fill, read] at failed
          simp only [answer, filled] at failed
          cases failed
          exact later filled
        | ok more =>
          rw [fill, read] at failed
          simp only [answer, filled] at failed
          contradiction

end Template
end Colloquy
