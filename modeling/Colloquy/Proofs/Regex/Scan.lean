import Colloquy.Regex.Token
import Mathlib.Data.List.Infix

/-! The symbols of a text, symbol by symbol. -/

namespace Colloquy.Regex

variable {ts : List Token}

theorem scan_plain {c : Char} (other : c ≠ '\\') (rest : List Char) :
    Token.scan (c :: rest) = .plain c :: Token.scan rest :=
  Token.scan.eq_4 c rest (fun same _ => other same) fun _ _ same _ => other same

/-- A character that begins no other kind of symbol is no backslash. -/
theorem ne_backslash {c : Char} {rest : List Char} (lone : c = '\\' → rest = [] → False)
    (escape : ∀ d later, c = '\\' → rest = d :: later → False) : c ≠ '\\' := by
  intro same
  cases rest with
  | nil => exact lone same rfl
  | cons d later => exact escape d later same rfl

/-- Symbols at the end of a text are the symbols of its end. -/
theorem scan_suffix {text : List Char} (ends : ts <:+ Token.scan text) :
    ∃ later, later <:+ text ∧ ts = Token.scan later := by
  fun_induction Token.scan text with
  | case1 =>
    rw [List.suffix_nil] at ends
    exact ⟨[], List.suffix_rfl, ends⟩
  | case2 =>
    rcases List.suffix_cons_iff.mp ends with whole | nothing
    · exact ⟨_, List.suffix_rfl, whole⟩
    · rw [List.suffix_nil] at nothing
      exact ⟨[], List.nil_suffix, nothing⟩
  | case3 c rest ih =>
    rcases List.suffix_cons_iff.mp ends with whole | later
    · exact ⟨_, List.suffix_rfl, whole⟩
    · obtain ⟨later, ends, same⟩ := ih later
      exact ⟨later, ends.trans (List.suffix_append ['\\', c] rest), same⟩
  | case4 c rest lone escape ih =>
    rcases List.suffix_cons_iff.mp ends with whole | later
    · exact ⟨c :: rest, List.suffix_rfl, by rw [whole, scan_plain (ne_backslash lone escape)]⟩
    · obtain ⟨later, ends, same⟩ := ih later
      exact ⟨later, ends.trans (List.suffix_cons c rest), same⟩

/-- The symbols of a text that ends with no lone backslash do not depend on what follows. -/
theorem scan_append {text : List Char} (whole : .lone ∉ Token.scan text) (rest : List Char) :
    Token.scan (text ++ rest) = Token.scan text ++ Token.scan rest := by
  fun_induction Token.scan text with
  | case1 => rfl
  | case2 => simp at whole
  | case3 c text ih =>
    have later : .lone ∉ Token.scan text := fun member => whole (List.mem_cons_of_mem _ member)
    rw [List.cons_append, List.cons_append, Token.scan, ih later, List.cons_append]
  | case4 c text lone escape ih =>
    have later : .lone ∉ Token.scan text := fun member => whole (List.mem_cons_of_mem _ member)
    rw [List.cons_append, scan_plain (ne_backslash lone escape), ih later, List.cons_append]

end Colloquy.Regex
