import Colloquy.Proofs.Double
import Colloquy.Random

/-! Sources whose numbers are shares of a whole, and what they pick. -/

namespace Colloquy

/-- No list has as many things as this. -/
def countLimit : Nat := 2 ^ 63

/-- What is picked lies inside, whatever number it is picked by. -/
theorem pickIndex_inside {x : Double} {length : Nat} (some_ : 0 < length) {i : Int}
    (picked : pickIndex x length = .ok i) : ∃ n : Nat, i = n ∧ n < length := by
  have clamped (k : Int) : ∃ n : Nat, min (max k 0) ((length : Int) - 1) = n ∧ n < length :=
    ⟨(min (max k 0) ((length : Int) - 1)).toNat, by omega, by omega⟩
  rw [pickIndex] at picked
  split at picked
  · split at picked
    · cases picked
      exact clamped _
    · contradiction
    · contradiction
  · contradiction

/-- A number picks something just when its product with the length is finite. -/
theorem pickIndex_ok_iff {x : Double} {length : Nat} :
    (∃ i, pickIndex x length = .ok i) ↔ x.ScalesTo length := by
  rw [pickIndex, Double.ScalesTo]
  cases whole : Double.ofInt length with
  | nan => cases x <;> simp [Double.mul]
  | infinite s =>
    cases x with
    | nan => simp [Double.mul]
    | infinite t => simp [Double.mul]
    | finite t m e => by_cases zero : m = 0 <;> simp [Double.mul, zero]
  | finite s m e =>
    dsimp only
    cases product : x.mul (.finite s m e) <;> simp

theorem not_scalesTo_of_error {x : Double} {length : Nat} {b : Breakdown}
    (unpicked : pickIndex x length = .error b) : ¬ x.ScalesTo length := by
  intro scales
  obtain ⟨i, picked⟩ := pickIndex_ok_iff.mpr scales
  rw [unpicked] at picked
  contradiction

/-- A share of a length picks something. -/
theorem pickIndex_ok {x : Double} (unit : x.InUnit) {length : Nat} (held : length < countLimit) :
    ∃ i, pickIndex x length = .ok i :=
  pickIndex_ok_iff.mpr (unit.moderate.scalesTo held)

theorem Draws.number_mem {numbers : List Double} (some_ : numbers ≠ []) (i : Nat) :
    (ofList numbers).number i ∈ numbers := by
  have inside : i % numbers.length < numbers.length := Nat.mod_lt i (List.length_pos_iff.mpr some_)
  simp only [ofList, List.getElem?_eq_getElem inside]
  exact List.getElem_mem inside

namespace RandomSource

/-- A source after so many draws. -/
def later : Nat → RandomSource → RandomSource
  | 0, s => s
  | k + 1, s => later k s.next.2

/-- Whether the numbers that a source gives pick something from things of so many, draw after draw. -/
def Picks (s : RandomSource) : List Nat → Prop
  | [] => True
  | count :: rest => s.next.1.ScalesTo count ∧ s.next.2.Picks rest

/-- Whether all numbers that a source will ever give lie between zero and one, zero included. -/
def DrawsInUnit (s : RandomSource) : Prop := ∀ k, (s.later k).next.1.InUnit

/-- Whether all numbers that a source will ever give are moderate. -/
def DrawsModerate (s : RandomSource) : Prop := ∀ k, (s.later k).next.1.Moderate

variable {s : RandomSource}

theorem later_succ (k : Nat) (s : RandomSource) : s.later (k + 1) = (s.later k).next.2 := by
  induction k generalizing s with
  | zero => rfl
  | succ k ih => exact ih s.next.2

/-- Numbers pick something from all counts just if they do from all but the last, and the next one does
from that. -/
theorem picks_concat {counts : List Nat} {count : Nat} : s.Picks (counts ++ [count]) ↔
    s.Picks counts ∧ (s.later counts.length).next.1.ScalesTo count := by
  induction counts generalizing s with
  | nil => simp [Picks, later]
  | cons first rest ih => rw [List.cons_append, Picks, Picks, ih, and_assoc, List.length_cons, later]

theorem DrawsModerate.next (moderate : s.DrawsModerate) : s.next.2.DrawsModerate :=
  fun k => moderate (k + 1)

/-- Moderate numbers pick something from any lists that there can be. -/
theorem DrawsModerate.picks {counts : List Nat} (moderate : s.DrawsModerate)
    (held : ∀ count ∈ counts, count < countLimit) : s.Picks counts := by
  induction counts generalizing s with
  | nil => trivial
  | cons first rest ih =>
    have few := held first List.mem_cons_self
    refine ⟨(moderate 0).scalesTo few, ih moderate.next fun count member => ?_⟩
    exact held count (List.mem_cons_of_mem _ member)

theorem DrawsInUnit.first (unit : s.DrawsInUnit) : s.next.1.InUnit := unit 0

theorem DrawsInUnit.moderate (unit : s.DrawsInUnit) : s.DrawsModerate := fun k => (unit k).moderate

theorem DrawsInUnit.next (unit : s.DrawsInUnit) : s.next.2.DrawsInUnit := fun k => unit (k + 1)

theorem later_seeded (k : Nat) (state : Int) : (seeded state).later k = .seeded (step^[k] state) := by
  induction k generalizing state with
  | zero => rfl
  | succ k ih => exact ih (step state)

theorem later_sequence (draws : Draws) (k drawn : Nat) :
    (sequence draws drawn).later k = .sequence draws (drawn + k) := by
  induction k generalizing drawn with
  | zero => rfl
  | succ k ih => rw [later, next, ih, Nat.add_right_comm, Nat.add_assoc]

theorem step_bounds (state : Int) : 0 ≤ step state ∧ step state < modulus := by
  have positive : (0 : Int) < modulus := by decide
  exact ⟨Int.emod_nonneg _ positive.ne', Int.emod_lt_of_pos _ positive⟩

/-- The share of a state of the generator lies between zero and one. -/
theorem share_inUnit {state : Int} (positive : 0 ≤ state) (inside : state < modulus) :
    (share state).InUnit := by
  obtain ⟨n, rfl⟩ := Int.eq_ofNat_of_zero_le positive
  have small : n < modulus := mod_cast inside
  have log : n.log2 ≤ 18 := Double.log2_le (small.trans (by decide))
  have width : Nat.log2 modulus = 17 := by decide
  obtain ⟨m, e, same, bound⟩ := Double.ofRatio_finite (n := n) (d := modulus) false (by omega)
  have sign : decide ((n : Int) < 0) = false := decide_eq_false (by omega)
  refine ⟨m * 2 ^ e, ?_, by positivity, ?_⟩
  · rw [share, sign, Int.natAbs_natCast, same]
    rfl
  · have exponent : Double.exponentFor n modulus ≤ -51 := by
      have bound := Double.exponentFor_le n modulus
      rw [Double.leastExponent] at bound
      omega
    have unit : (2 : ℚ) ^ Double.exponentFor n modulus ≤ 2 ^ (-51 : Int) :=
      zpow_le_zpow_right₀ (by norm_num) exponent
    have most : (n / modulus : ℚ) ≤ 233279 / 233280 := by
      have largest : (n : ℚ) ≤ 233279 := mod_cast Nat.le_pred_of_lt small
      exact div_le_div_of_nonneg_right largest (by positivity)
    calc (m * 2 ^ e : ℚ)
        ≤ n / modulus + 2 ^ Double.exponentFor n modulus := bound
      _ ≤ 233279 / 233280 + 2 ^ (-51 : Int) := add_le_add most unit
      _ < 1 := by norm_num

/-- The generator gives nothing but shares. -/
theorem drawsInUnit_seeded (state : Int) : (seeded state).DrawsInUnit := by
  intro k
  obtain ⟨positive, inside⟩ := step_bounds (step^[k] state)
  rw [later_seeded]
  exact share_inUnit positive inside

/-- What holds of all numbers of a sequence holds of those that it will give. -/
theorem next_sequence {fits : Double → Prop} {draws : Draws} (drawn : Nat)
    (all : ∀ i, fits (draws.number i)) (k : Nat) : fits ((sequence draws drawn).later k).next.1 := by
  rw [later_sequence]
  exact all (drawn + k)

theorem drawsInUnit_sequence {draws : Draws} (drawn : Nat) (all : ∀ i, (draws.number i).InUnit) :
    (sequence draws drawn).DrawsInUnit := next_sequence drawn all

end RandomSource
end Colloquy
