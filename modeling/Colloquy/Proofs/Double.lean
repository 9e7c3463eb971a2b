import Mathlib.Algebra.Order.Field.Power
import Mathlib.Data.Nat.Cast.Order.Field
import Mathlib.Tactic.FieldSimp
import Mathlib.Tactic.Linarith
import Mathlib.Tactic.NormNum
import Mathlib.Tactic.Positivity
import Mathlib.Tactic.Ring
import Colloquy.Double

/-! Bounds on rounded results: rounding moves a quotient by less than one unit of its last place, so
that quotients and products that are far from the greatest number stay finite. -/

namespace Colloquy.Double

/-- The value of a finite number. -/
def toRat? : Double → Option ℚ
  | .finite negative m e => some (signed negative m * 2 ^ e)
  | .infinite _ => none
  | .nan => none

/-- Whether a number lies between zero and one, zero included. -/
def InUnit (x : Double) : Prop := ∃ q, x.toRat? = some q ∧ 0 ≤ q ∧ q < 1

/-- A number far from the greatest one, which is just below `2 ^ 1024`. -/
@[irreducible] def reach : ℚ := 2 ^ 900

/-- Whether a number is finite and far from the greatest one, on either side of zero. -/
def Moderate (x : Double) : Prop := ∃ q, x.toRat? = some q ∧ |q| ≤ reach

/-- Whether a number times a length is finite. -/
def ScalesTo (x : Double) (length : Nat) : Prop :=
  ∃ negative m e, x.mul (.ofInt length) = .finite negative m e

variable {negative : Bool} {n d m : Nat} {e : Int}

theorem roundHalfEven_le (n d : Nat) : roundHalfEven n d ≤ n / d + 1 := by
  simp only [roundHalfEven]
  split
  · omega
  · split
    · omega
    · split <;> omega

theorem twoPow_toNat (whole : 0 ≤ e) : (Nat.pow 2 e.toNat : ℚ) = 2 ^ e := by
  obtain ⟨k, rfl⟩ := Int.eq_ofNat_of_zero_le whole
  simp [Nat.pow_eq]

/-- The quotient that is rounded is the given one in units of `2 ^ exponent`. -/
theorem scaled_eq (n d : Nat) (e : Int) :
    ((scaled n d e).1 / (scaled n d e).2 : ℚ) * 2 ^ e = n / d := by
  have power : (2 : ℚ) ^ e ≠ 0 := by positivity
  rw [scaled]
  split
  · next whole =>
    rw [Nat.cast_mul, twoPow_toNat whole, div_mul_eq_div_div, div_mul_cancel₀ _ power]
  · next below =>
    rw [Nat.cast_mul, twoPow_toNat (by omega), zpow_neg, div_mul_eq_mul_div, mul_assoc,
      inv_mul_cancel₀ power, mul_one]

/-- A quotient in units of a power of two is rounded up by one unit at most. -/
theorem round_scaled_le (n d : Nat) (e : Int) :
    (roundHalfEven (scaled n d e).1 (scaled n d e).2 * 2 ^ e : ℚ) ≤ n / d + 2 ^ e := by
  have floor : (((scaled n d e).1 / (scaled n d e).2 : Nat) : ℚ) ≤
      (scaled n d e).1 / (scaled n d e).2 := Nat.cast_div_le
  have rounded : (roundHalfEven (scaled n d e).1 (scaled n d e).2 : ℚ) ≤
      ((scaled n d e).1 / (scaled n d e).2 : Nat) + 1 := mod_cast roundHalfEven_le _ _
  calc (roundHalfEven (scaled n d e).1 (scaled n d e).2 * 2 ^ e : ℚ)
      ≤ ((scaled n d e).1 / (scaled n d e).2 + 1) * 2 ^ e :=
        mul_le_mul_of_nonneg_right (by linarith) (by positivity)
    _ = n / d + 2 ^ e := by rw [add_mul, scaled_eq, one_mul]

theorem exponentFor_le (n d : Nat) :
    exponentFor n d ≤ max leastExponent ((n.log2 : Int) - d.log2 - 52) := by
  simp only [exponentFor]
  split <;> omega

/-- A quotient that is far from the greatest number has a finite result, which is greater by at most
one unit. -/
theorem ofRatio_finite (negative : Bool) (far : (n.log2 : Int) ≤ d.log2 + 1022) :
    ∃ m e, ofRatio negative n d = .finite negative m e ∧
      (m * 2 ^ e : ℚ) ≤ n / d + 2 ^ exponentFor n d := by
  rw [ofRatio]
  split
  · next zero =>
    refine ⟨0, leastExponent, rfl, ?_⟩
    rw [Nat.cast_zero, zero_mul]
    positivity
  · have bound := exponentFor_le n d
    have rounded := round_scaled_le n d (exponentFor n d)
    have inside : exponentFor n d ≤ 970 := by
      rw [leastExponent] at bound
      omega
    by_cases carried : roundHalfEven (scaled n d (exponentFor n d)).1
        (scaled n d (exponentFor n d)).2 = Nat.pow 2 53
    · refine ⟨Nat.pow 2 52, exponentFor n d + 1, ?_, ?_⟩
      · simp only [carried, if_true]
        exact if_neg (by omega)
      · refine le_of_eq_of_le ?_ rounded
        rw [carried, zpow_add_one₀ (by decide)]
        norm_num
        ring
    · refine ⟨_, exponentFor n d, ?_, rounded⟩
      simp only [carried, if_false]
      exact if_neg (by omega)

theorem log2_le {k : Nat} (small : n < 2 ^ k) : n.log2 ≤ k := by
  by_cases zero : n = 0
  · rw [zero, Nat.log2_zero]
    exact Nat.zero_le k
  · exact ((Nat.log2_lt zero).mpr small).le

/-- A number far from the greatest one is finite when it has been rounded. -/
theorem ofScaled_finite (negative : Bool) (far : (m * 2 ^ e : ℚ) < 2 ^ 1000) :
    ∃ n f, ofScaled negative m e = .finite negative n f := by
  rw [ofScaled]
  split
  · next whole =>
    rw [← twoPow_toNat whole] at far
    have small : m * Nat.pow 2 e.toNat < 2 ^ 1000 := mod_cast far
    have bound := log2_le small
    have far : ((m * Nat.pow 2 e.toNat).log2 : Int) ≤ Nat.log2 1 + 1022 := by
      rw [show Nat.log2 1 = 0 from Nat.log2_two_pow (n := 0)]
      omega
    obtain ⟨n, f, same, _⟩ := ofRatio_finite negative far
    exact ⟨n, f, same⟩
  · next below =>
    have small : m < 2 ^ (1000 + (-e).toNat) := by
      have power := twoPow_toNat (e := -e) (by omega)
      have scaled : (m : ℚ) < 2 ^ 1000 * 2 ^ (-e) := by
        rw [zpow_neg, ← div_eq_mul_inv, lt_div_iff₀ (by positivity)]
        exact far
      rw [← power] at scaled
      rw [pow_add]
      exact_mod_cast scaled
    have bound := log2_le small
    have width : (Nat.pow 2 (-e).toNat).log2 = (-e).toNat := Nat.log2_two_pow
    have far : (m.log2 : Int) ≤ (Nat.pow 2 (-e).toNat).log2 + 1022 := by
      rw [width]
      omega
    obtain ⟨n, f, same, _⟩ := ofRatio_finite negative far
    exact ⟨n, f, same⟩

theorem ofInt_finite (small : n < 2 ^ 63) :
    ∃ m e, ofInt n = .finite false m e ∧ (m * 2 ^ e : ℚ) ≤ 2 ^ 64 := by
  have width := log2_le small
  have far : (n.log2 : Int) ≤ Nat.log2 1 + 1022 := by
    rw [show Nat.log2 1 = 0 from Nat.log2_two_pow (n := 0)]
    omega
  obtain ⟨m, e, same, bound⟩ := ofRatio_finite false far
  refine ⟨m, e, ?_, ?_⟩
  · have sign : decide ((n : Int) < 0) = false := decide_eq_false (by omega)
    rw [ofInt, sign]
    exact same
  · have exponent : exponentFor n 1 ≤ 11 := by
      have bound := exponentFor_le n 1
      rw [leastExponent] at bound
      omega
    have unit : (2 : ℚ) ^ exponentFor n 1 ≤ 2 ^ (11 : Int) :=
      zpow_le_zpow_right₀ (by norm_num) exponent
    calc (m * 2 ^ e : ℚ)
        ≤ n / (1 : Nat) + 2 ^ exponentFor n 1 := bound
      _ ≤ 2 ^ 63 + 2 ^ (11 : Int) := by
        rw [Nat.cast_one, div_one]
        exact add_le_add (mod_cast small.le) unit
      _ ≤ 2 ^ 64 := by norm_num

theorem finite_of_mul_finite {x y : Double} (product : x.mul y = .finite negative m e) :
    ∃ s n f, x = .finite s n f := by
  cases x with
  | finite s n f => exact ⟨s, n, f, rfl⟩
  | nan => cases y <;> cases product
  | infinite s =>
    cases y with
    | nan => cases product
    | infinite t => cases product
    | finite t n f =>
      rw [mul] at product
      split at product <;> contradiction

theorem ScalesTo.toRat?_eq_some {x : Double} {length : Nat} (scales : x.ScalesTo length) :
    ∃ q, x.toRat? = some q := by
  obtain ⟨_, _, _, product⟩ := scales
  obtain ⟨s, m, e, rfl⟩ := finite_of_mul_finite product
  exact ⟨_, rfl⟩

theorem abs_signed (negative : Bool) (m : Nat) : |(signed negative m : ℚ)| = m := by
  cases negative with
  | false => exact abs_of_nonneg (Nat.cast_nonneg m)
  | true =>
    rw [signed, if_pos rfl, Int.cast_neg, abs_neg]
    exact abs_of_nonneg (Nat.cast_nonneg m)

theorem one_le_reach : 1 ≤ reach := by
  rw [reach]
  exact one_le_pow₀ one_le_two

theorem reach_mul_lt : reach * 2 ^ 64 < 2 ^ 1000 := by
  rw [reach, ← pow_add]
  exact pow_lt_pow_right₀ (by norm_num) (by norm_num)

theorem moderate_of_le (small : (m * 2 ^ e : ℚ) ≤ 2 ^ 64) : (finite negative m e).Moderate := by
  refine ⟨_, rfl, ?_⟩
  rw [abs_mul, abs_signed, abs_of_nonneg (by positivity : (0 : ℚ) ≤ 2 ^ e), reach]
  exact small.trans (pow_le_pow_right₀ one_le_two (by norm_num))

/-- A moderate number times one of some size stays finite. -/
theorem Moderate.mul_finite {x : Double} (moderate : x.Moderate) {s : Bool}
    (bound : (n * 2 ^ e : ℚ) ≤ 2 ^ 64) : ∃ t m f, x.mul (.finite s n e) = .finite t m f := by
  obtain ⟨q, value, within⟩ := moderate
  cases x with
  | infinite negative => contradiction
  | nan => contradiction
  | finite negative m f =>
    cases value
    have size : (m * 2 ^ f : ℚ) ≤ reach := by
      rw [abs_mul, abs_signed, abs_of_nonneg (by positivity : (0 : ℚ) ≤ 2 ^ f)] at within
      exact within
    have far : ((m * n : Nat) * 2 ^ (f + e) : ℚ) < 2 ^ 1000 := by
      calc ((m * n : Nat) * 2 ^ (f + e) : ℚ)
          = (m * 2 ^ f) * (n * 2 ^ e) := by
            rw [zpow_add₀ (by norm_num), Nat.cast_mul]
            ring
        _ ≤ reach * 2 ^ 64 :=
          mul_le_mul size bound (by positivity) (zero_le_one.trans one_le_reach)
        _ < 2 ^ 1000 := reach_mul_lt
    obtain ⟨k, g, same⟩ := ofScaled_finite (negative != s) far
    exact ⟨_, k, g, same⟩

/-- A moderate number times the length of a list is finite. -/
theorem Moderate.scalesTo {x : Double} (moderate : x.Moderate) {length : Nat}
    (held : length < 2 ^ 63) : x.ScalesTo length := by
  obtain ⟨m, e, whole, bound⟩ := ofInt_finite held
  rw [ScalesTo, whole]
  exact moderate.mul_finite bound

theorem InUnit.moderate {x : Double} (unit : x.InUnit) : x.Moderate := by
  obtain ⟨q, value, positive, below⟩ := unit
  refine ⟨q, value, ?_⟩
  rw [abs_of_nonneg positive]
  exact below.le.trans one_le_reach

end Colloquy.Double
