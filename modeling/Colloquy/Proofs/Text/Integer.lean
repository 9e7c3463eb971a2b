import Mathlib.Data.List.Basic
import Colloquy.Proofs.Text.Character
import Colloquy.Text.Integer
import Colloquy.Text.Naming
import Colloquy.Text.Numeral

/-! Numbers that are written with digits only, of any script. -/

namespace Colloquy.Text

variable {c : Char} {digits : List Char}

def digitOf (c : Char) : Nat := (digitValue? c).getD 0

theorem digitValue?_of_isDigit (digit : isDigit c = true) : digitValue? c = some (digitOf c) := by
  obtain ⟨d, read⟩ := Option.isSome_iff_exists.mp digit
  rw [digitOf, read, Option.getD_some]

theorem underscore_not_digit : isDigit '_' = false := by decide

theorem underscoredDigits?_of_digits (some_ : digits ≠ []) (all : ∀ c ∈ digits, isDigit c = true) :
    underscoredDigits? digits = some (digits.map digitOf) := by
  fun_induction underscoredDigits? digits with
  | case1 => contradiction
  | case2 c =>
    rw [digitValue?_of_isDigit (all c List.mem_cons_self)]
    rfl
  | case3 c rest ih =>
    have digit := all '_' (by simp)
    rw [underscore_not_digit] at digit
    contradiction
  | case4 c rest more _ ih =>
    have some_ : rest ≠ [] := by
      rintro rfl
      exact more rfl
    obtain ⟨first, others⟩ := List.forall_mem_cons.mp all
    rw [digitValue?_of_isDigit first, ih some_ others]
    rfl

/-- Digits stand for their number unless there are too many of them. -/
theorem natural?_of_digits (some_ : digits ≠ []) (all : ∀ c ∈ digits, isDigit c = true) :
    natural? digits =
      if digits.length ≤ digitLimit then some (numberOf (digits.map digitOf)) else none := by
  rw [natural?, underscoredDigits?_of_digits some_ all]
  simp

/-- Digits are a number unless there are too many of them. -/
theorem long_of_natural?_eq_none (some_ : digits ≠ []) (all : ∀ c ∈ digits, isDigit c = true)
    (unread : natural? digits = none) : digitLimit < digits.length := by
  rw [natural?_of_digits some_ all] at unread
  simpa using unread

theorem numberOf_le_append (ds more : List Nat) : numberOf ds ≤ numberOf (ds ++ more) := by
  have grows (n : Nat) : n ≤ more.foldl (fun n d => 10 * n + d) n := by
    induction more generalizing n with
    | nil => exact Nat.le_refl n
    | cons d more ih =>
      have next := ih (10 * n + d)
      rw [List.foldl_cons]
      omega
  rw [numberOf, numberOf, List.foldl_append]
  exact grows _

/-- The first digits of a number are a number that is no larger. -/
theorem natural?_prefix {seen : List Char} {n : Nat} (some_ : digits ≠ []) (begins : digits <+: seen)
    (all : ∀ c ∈ seen, isDigit c = true) (read : natural? seen = some n) :
    ∃ m ≤ n, natural? digits = some m := by
  obtain ⟨more, rfl⟩ := begins
  have first : ∀ c ∈ digits, isDigit c = true := fun c member => all c (List.mem_append_left more member)
  rw [natural?_of_digits (List.append_ne_nil_of_left_ne_nil some_ more) all, List.map_append,
    List.length_append] at read
  split at read
  · next few =>
    cases read
    refine ⟨_, numberOf_le_append (digits.map digitOf) (more.map digitOf), ?_⟩
    rw [natural?_of_digits some_ first, if_pos (by omega)]
  · contradiction

theorem beginsName_of_isDigit (digit : isDigit c = true) : beginsName c = false := by
  have table : ∀ z ∈ Table.zeros, ∀ k < 10, Table.alsoFirst.has (z + k) = false := by decide +kernel
  by_cases ascii : c.toNat < 128
  · exact of_toNat_lt (fun c => isDigit c = true → beginsName c = false) ascii (by decide +kernel) digit
  · have wide := digit
    rw [isDigit, digitValue?, if_neg ascii, Option.isSome_map, List.find?_isSome] at wide
    obtain ⟨z, member, range⟩ := wide
    simp only [Bool.and_eq_true, decide_eq_true_eq] at range
    have other := table z member (c.toNat - z) (by omega)
    rw [Nat.add_sub_cancel' range.1] at other
    rw [beginsName, if_neg ascii, digit, other]
    simp

theorem trim_of_solid {drop : Char → Bool} {text : List Char} (solid : ∀ c ∈ text, drop c = false) :
    trim drop text = text := by
  have stays (l : List Char) (solid : ∀ c ∈ l, drop c = false) : l.dropWhile drop = l := by
    cases l with
    | nil => rfl
    | cons c l => exact List.dropWhile_cons_of_neg (by simp [solid c List.mem_cons_self])
  rw [trim, stays text solid, stays, List.reverse_reverse]
  exact fun c member => solid c (List.mem_reverse.mp member)

theorem integer?_of_digits (all : ∀ c ∈ digits, isDigit c = true) :
    integer? digits = (natural? digits).map fun n => (n : Int) := by
  have trimmed : trim surroundsNumber digits = digits := trim_of_solid fun c member => by
    rw [surroundsNumber, isBlank_of_isDigit (all c member), Bool.false_and]
  rw [integer?, trimmed]
  split
  · have minus := all '-' List.mem_cons_self
    contradiction
  · have plus := all '+' List.mem_cons_self
    contradiction
  · rfl

/-- Digits are no name. -/
theorem isName_of_digits (all : ∀ c ∈ digits, isDigit c = true) : isName digits = false := by
  cases digits with
  | nil => rfl
  | cons c rest => rw [isName, beginsName_of_isDigit (all c List.mem_cons_self), Bool.false_and]

/-! Digits of ASCII. -/

theorem isDigit_of_isPlainDigit (plain : isPlainDigit c = true) :
    isDigit c = true ∧ digitOf c = (hexValue? c).getD 0 := by
  have below : c.toNat < 58 := by
    simp only [isPlainDigit, Bool.and_eq_true, decide_eq_true_eq] at plain
    omega
  exact of_toNat_lt
    (fun c => isPlainDigit c = true → isDigit c = true ∧ digitOf c = (hexValue? c).getD 0)
    below (by decide +kernel) plain

theorem natural?_of_plain (some_ : digits ≠ []) (all : ∀ c ∈ digits, isPlainDigit c = true)
    (few : digits.length ≤ digitLimit) : natural? digits = some (inBase 10 digits) := by
  have same : digits.map digitOf = digits.map fun c => (hexValue? c).getD 0 :=
    List.map_congr_left fun c member => (isDigit_of_isPlainDigit (all c member)).2
  rw [natural?_of_digits some_ fun c member => (isDigit_of_isPlainDigit (all c member)).1, if_pos few,
    same, numberOf, List.foldl_map]
  rfl

end Colloquy.Text
