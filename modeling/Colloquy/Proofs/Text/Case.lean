import Colloquy.Proofs.Text.Character
import Colloquy.Text.Case

/-! Lowercase is settled: the small letter of a letter is its own, so that a text in lowercase is left
alone. -/

namespace Colloquy.Text

def Table.CaseStretch.has (s : CaseStretch) (n : Nat) : Bool :=
  s.first ≤ n && n ≤ s.last && (n - s.first) % s.step == 0

/-- The code point of the small letter, for a capital of a stretch. -/
def Table.CaseStretch.small (s : CaseStretch) (n : Nat) : Nat := n + s.up - s.down

/-- Whether no small letter of the stretch `s` is a capital of the stretch `t`, by the ends of the two
or because every other code point is a capital. -/
def Table.CaseStretch.isApart (s t : CaseStretch) : Bool :=
  (t.last + s.down).blt (s.first + s.up) || (s.last + s.up).blt (t.first + s.down) ||
    t.step.beq 2 && (s.step.beq 2 || s.first.beq s.last) &&
      ((s.first + s.up - s.down - t.first) % 2).beq 1

/-- Whether the small letters of a stretch are characters, and neither ASCII capitals nor the capital I
with a dot. -/
def Table.CaseStretch.isSettled (s : CaseStretch) : Bool :=
  s.down.ble (s.first + s.up) &&
    ((s.last + s.up).blt (65 + s.down) || (90 + s.down).blt (s.first + s.up)) &&
    ((s.last + s.up).blt (0x130 + s.down) || (0x130 + s.down).blt (s.first + s.up)) &&
    ((s.last + s.up).blt (0xd800 + s.down) ||
      (0xdfff + s.down).blt (s.first + s.up) && (s.last + s.up).blt (0x110000 + s.down))

theorem lower_isApart : (Table.lower.all fun s => Table.lower.all s.isApart) = true := by decide +kernel

theorem lower_isSettled : Table.lower.all Table.CaseStretch.isSettled = true := by decide +kernel

section

variable {s t : Table.CaseStretch} {n : Nat}

theorem has_iff : s.has n = true ↔ s.first ≤ n ∧ n ≤ s.last ∧ (n - s.first) % s.step = 0 := by
  simp [Table.CaseStretch.has, and_assoc]

/-- The small letter of a capital is no capital of any stretch. -/
theorem not_has_small (settled : s.isSettled = true) (apart : s.isApart t = true)
    (capital : s.has n = true) : t.has (s.small n) = false := by
  simp only [Table.CaseStretch.isSettled, Bool.and_eq_true, Nat.ble_eq] at settled
  have ordered := settled.1.1.1
  rw [has_iff] at capital
  rw [← Bool.not_eq_true, has_iff, Table.CaseStretch.small]
  rintro ⟨low, high, even⟩
  simp only [Table.CaseStretch.isApart, Bool.or_eq_true, Bool.and_eq_true, Nat.blt_eq, Nat.beq_eq] at apart
  rcases apart with (above | below) | ⟨⟨two, alike⟩, odd⟩
  · omega
  · omega
  · rw [two] at even
    rcases alike with steps | single
    · rw [steps] at capital
      omega
    · omega

theorem small_isValid (settled : s.isSettled = true) (capital : s.has n = true) :
    (s.small n).isValidChar := by
  simp only [Table.CaseStretch.isSettled, Bool.and_eq_true, Bool.or_eq_true, Nat.ble_eq, Nat.blt_eq] at settled
  obtain ⟨low, high, _⟩ := has_iff.mp capital
  rw [Nat.isValidChar, Table.CaseStretch.small]
  omega

theorem not_capital_small (settled : s.isSettled = true) (capital : s.has n = true) :
    65 ≤ s.small n → 90 < s.small n := by
  simp only [Table.CaseStretch.isSettled, Bool.and_eq_true, Bool.or_eq_true, Nat.ble_eq, Nat.blt_eq] at settled
  obtain ⟨low, high, _⟩ := has_iff.mp capital
  rw [Table.CaseStretch.small]
  omega

theorem not_dotted_small (settled : s.isSettled = true) (capital : s.has n = true) :
    s.small n ≠ 0x130 := by
  simp only [Table.CaseStretch.isSettled, Bool.and_eq_true, Bool.or_eq_true, Nat.ble_eq, Nat.blt_eq] at settled
  obtain ⟨low, high, _⟩ := has_iff.mp capital
  rw [Table.CaseStretch.small]
  omega

end

theorem toNat_ofNat {n : Nat} (valid : n.isValidChar) : (Char.ofNat n).toNat = n := by
  unfold Char.ofNat
  rw [dif_pos valid]
  unfold Char.ofNatAux Char.toNat
  simp

theorem lowerOne_wide {c : Char} (wide : 128 ≤ c.toNat) (plain : c.toNat ≠ 0x130) :
    lowerOne c = ((Table.lower.find? (·.has c.toNat)).map fun s => Char.ofNat (s.small c.toNat)).getD c := by
  rw [lowerOne, if_neg (Nat.not_lt.mpr wide), if_neg (by simpa using plain)]
  have same : Table.lower.find? (fun s =>
      s.first ≤ c.toNat && c.toNat ≤ s.last && (c.toNat - s.first) % s.step == 0) =
      Table.lower.find? (·.has c.toNat) := rfl
  rw [same]
  cases Table.lower.find? (·.has c.toNat) <;> rfl

theorem lowerOne_of_ascii {c : Char} (ascii : c.toNat < 128) (small : isCapitalLatin c = false) :
    lowerOne c = c := by
  rw [lowerOne, if_pos ascii, small, if_neg Bool.false_ne_true]

/-- The small letter of a letter is its own small letter. -/
theorem lowerOne_lowerOne (c : Char) : lowerOne (lowerOne c) = lowerOne c := by
  by_cases ascii : c.toNat < 128
  · exact of_toNat_lt (fun c => lowerOne (lowerOne c) = lowerOne c) ascii (by decide +kernel)
  by_cases dotted : c.toNat = 0x130
  · have named : c = 'İ' := by rw [← Char.ofNat_toNat c, dotted]
    rw [named]
    rfl
  have wide := Nat.not_lt.mp ascii
  cases found : Table.lower.find? (·.has c.toNat) with
  | none =>
    have own : lowerOne c = c := by rw [lowerOne_wide wide dotted, found]; rfl
    rw [own, own]
  | some s =>
    have member := List.mem_of_find?_eq_some found
    have capital := List.find?_some found
    have settled := List.all_eq_true.mp lower_isSettled s member
    have apart := List.all_eq_true.mp (List.all_eq_true.mp lower_isApart s member)
    have code := toNat_ofNat (small_isValid settled capital)
    have small : lowerOne c = Char.ofNat (s.small c.toNat) := by
      rw [lowerOne_wide wide dotted, found]
      rfl
    rw [small]
    by_cases narrow : s.small c.toNat < 128
    · refine lowerOne_of_ascii (by rwa [code]) ?_
      rw [isCapitalLatin, code]
      simpa using not_capital_small settled capital
    · have none_ : Table.lower.find? (·.has (s.small c.toNat)) = none := by
        rw [List.find?_eq_none]
        intro t other
        simp [not_has_small settled (apart t other) capital]
      rw [lowerOne_wide, code, none_]
      · rfl
      · rw [code]
        exact Nat.not_lt.mp narrow
      · rw [code]
        exact not_dotted_small settled capital

/-! Whole texts. -/

variable {text : List Char}

/-- Text of small characters stays as it is, since the two letters that are treated apart are capitals.
-/
theorem lowerAfter_of_small (before : List Char) (small : ∀ c ∈ text, lowerOne c = c) :
    lowerAfter before text = text := by
  induction text generalizing before with
  | nil => rfl
  | cons c rest ih =>
    obtain ⟨own, small⟩ := List.forall_mem_cons.mp small
    have notSigma : (c == 'Σ') = false := by
      rw [beq_eq_false_iff_ne]
      rintro rfl
      revert own
      decide
    have notDotted : (c == 'İ') = false := by
      rw [beq_eq_false_iff_ne]
      rintro rfl
      revert own
      decide
    rw [lowerAfter, notSigma, notDotted, own, ih _ small]
    rfl

theorem lower_of_small (small : ∀ c ∈ text, lowerOne c = c) : lower text = text :=
  lowerAfter_of_small [] small

theorem small_of_mem_lowerAfter {c : Char} (before : List Char) (member : c ∈ lowerAfter before text) :
    lowerOne c = c := by
  induction text generalizing before with
  | nil => contradiction
  | cons d rest ih =>
    rw [lowerAfter] at member
    split at member
    · rcases List.mem_cons.mp member with rfl | later
      · split <;> decide
      · exact ih _ later
    · split at member
      · rcases List.mem_cons.mp member with rfl | member
        · decide
        · rcases List.mem_cons.mp member with rfl | later
          · decide
          · exact ih _ later
      · rcases List.mem_cons.mp member with rfl | later
        · exact lowerOne_lowerOne d
        · exact ih _ later

/-- All characters of a text in small letters are small. -/
theorem small_of_mem_lower {c : Char} (member : c ∈ lower text) : lowerOne c = c :=
  small_of_mem_lowerAfter [] member

end Colloquy.Text
