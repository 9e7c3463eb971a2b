import Colloquy.Text.Character

/-! Classes of characters that are checked character by character. -/

namespace Colloquy.Text

variable {c : Char}

theorem of_toNat_lt (P : Char → Prop) {n : Nat} (below : c.toNat < n) (all : ∀ m < n, P (Char.ofNat m)) : P c := by
  have own := all c.toNat below
  rwa [Char.ofNat_toNat] at own

def blanks : List Nat :=
  [9, 10, 11, 12, 13, 28, 29, 30, 31, 32, 0x85, 0xa0, 0x1680, 0x2000, 0x2001, 0x2002, 0x2003, 0x2004,
    0x2005, 0x2006, 0x2007, 0x2008, 0x2009, 0x200a, 0x2028, 0x2029, 0x202f, 0x205f, 0x3000]

theorem of_isBlank (P : Char → Prop) (blank : isBlank c = true) (all : ∀ n ∈ blanks, P (Char.ofNat n)) : P c := by
  have member : c.toNat ∈ blanks := by
    simp only [isBlank, Bool.or_eq_true, Bool.and_eq_true, beq_iff_eq, decide_eq_true_eq] at blank
    simp only [blanks, List.mem_cons, List.not_mem_nil, or_false]
    omega
  have own := all c.toNat member
  rwa [Char.ofNat_toNat] at own

theorem isWord_of_isBlank (blank : isBlank c = true) : isWord c = false :=
  of_isBlank (fun c => isWord c = false) blank (by decide +kernel)

theorem isBlank_of_isWord (word : isWord c = true) : isBlank c = false := by
  refine Bool.eq_false_iff.mpr fun blank => ?_
  rw [isWord_of_isBlank blank] at word
  contradiction

theorem isDigit_of_isBlank (blank : isBlank c = true) : isDigit c = false :=
  of_isBlank (fun c => isDigit c = false) blank (by decide +kernel)

theorem isBlank_of_isDigit (digit : isDigit c = true) : isBlank c = false := by
  refine Bool.eq_false_iff.mpr fun blank => ?_
  rw [isDigit_of_isBlank blank] at digit
  contradiction

end Colloquy.Text
