import Mathlib.Algebra.Ring.Periodic
import Mathlib.Data.Int.ConditionallyCompleteOrder
import Mathlib.Data.Int.Interval
import Mathlib.Dynamics.PeriodicPts.Defs
import Mathlib.NumberTheory.Multiplicity
import Mathlib.Tactic.LinearCombination
import Colloquy.Proofs.Random

/-! The cycle of the generator: from every seed it goes through all of its states, each once, before it
begins again. After a count of steps a state has moved by a sum of so many powers of the factor, times a
number that has no divisor in common with the size. So it returns just when the size divides that sum,
and this is when the size divides the count. -/

namespace Colloquy.RandomSource

open Finset

/-- The state that follows another one: the remainder of a multiple of it moved on by a number. -/
def advance (factor addend : Int) (size : Nat) (state : Int) : Int := (state * factor + addend) % size

/-- Numbers under which the states that follow one another leave none out: the addend has no divisor in
common with the size, and every prime of the size divides the number below the factor, and so does four
if the size is even. -/
structure IsThorough (factor addend : Int) (size : Nat) : Prop where
  coprime : Nat.Coprime size addend.natAbs
  dvd_pred : ∀ p : Nat, p.Prime → p ∣ size → (p : Int) ∣ factor - 1
  four_dvd_pred : 2 ∣ size → 4 ∣ factor - 1

variable {factor addend : Int} {size : Nat}

theorem not_dvd_of_dvd_pred {p : Nat} (prime : p.Prime) (pred : (p : Int) ∣ factor - 1) :
    ¬ (p : Int) ∣ factor := by
  intro divides
  have one : (p : Int) ∣ 1 := (dvd_sub_right divides).mp pred
  exact prime.one_lt.ne' (Nat.dvd_one.mp (mod_cast one))

/-- A prime that divides the number below the factor divides the sum of the first powers of the factor
as often as it divides their count. -/
theorem emultiplicity_powers {p : Nat} (prime : p.Prime) (pred : (p : Int) ∣ factor - 1)
    (four : p = 2 → 4 ∣ factor - 1) (count : Nat) :
    emultiplicity (p : Int) (∑ i ∈ range count, factor ^ i) = emultiplicity p count := by
  by_cases still : factor = 1
  · simp [still, Int.natCast_emultiplicity]
  have unit : ¬ (p : Int) ∣ factor := not_dvd_of_dvd_pred prime pred
  have lifted : emultiplicity (p : Int) (factor ^ count - 1 ^ count) =
      emultiplicity (p : Int) (factor - 1) + emultiplicity p count := by
    rcases prime.eq_two_or_odd' with rfl | odd
    · rw [← Int.natCast_emultiplicity]
      exact Int.two_pow_sub_pow' count (four rfl) unit
    · exact Int.emultiplicity_pow_sub_pow prime odd pred unit count
  have finite : emultiplicity (p : Int) (factor - 1) ≠ ⊤ := by
    rw [← finiteMultiplicity_iff_emultiplicity_ne_top, Int.finiteMultiplicity_iff]
    exact ⟨prime.ne_one, sub_ne_zero.mpr still⟩
  rw [one_pow, ← geom_sum_mul, emultiplicity_mul (Nat.prime_iff_prime_int.mp prime), add_comm] at lifted
  exact ENat.add_right_injective_of_ne_top finite lifted

theorem advance_mem (state : Int) (positive : 0 < size) :
    advance factor addend size state ∈ Set.Ico 0 (size : Int) := by
  have size_pos : (0 : Int) < size := mod_cast positive
  exact ⟨Int.emod_nonneg _ size_pos.ne', Int.emod_lt_of_pos _ size_pos⟩

theorem iterate_advance_mem {state : Int} (inside : state ∈ Set.Ico 0 (size : Int)) (positive : 0 < size)
    (count : Nat) : (advance factor addend size)^[count] state ∈ Set.Ico 0 (size : Int) := by
  have closed : Set.MapsTo (advance factor addend size) (Set.Ico 0 (size : Int)) (Set.Ico 0 size) :=
    fun state _ => advance_mem state positive
  exact closed.iterate count inside

/-- The state after so many steps in closed form, up to multiples of the size. -/
theorem iterate_advance_modEq (state : Int) (count : Nat) :
    (advance factor addend size)^[count] state ≡
      state * factor ^ count + addend * ∑ i ∈ range count, factor ^ i [ZMOD size] := by
  induction count with
  | zero => simp
  | succ count ih =>
    rw [Function.iterate_succ_apply']
    calc advance factor addend size ((advance factor addend size)^[count] state)
        ≡ (advance factor addend size)^[count] state * factor + addend [ZMOD size] :=
          Int.mod_modEq _ _
      _ ≡ (state * factor ^ count + addend * ∑ i ∈ range count, factor ^ i) * factor + addend
          [ZMOD size] := (ih.mul_right factor).add_right addend
      _ = state * factor ^ (count + 1) + addend * ∑ i ∈ range (count + 1), factor ^ i := by
          rw [geom_sum_succ]
          ring

namespace IsThorough

variable (thorough : IsThorough factor addend size)
include thorough

/-- The sum of so many powers of the factor is a multiple of the size just if their number is. -/
theorem dvd_powers_iff (count : Nat) :
    (size : Int) ∣ ∑ i ∈ range count, factor ^ i ↔ size ∣ count := by
  rw [Int.natCast_dvd, Nat.dvd_iff_prime_pow_dvd_dvd, Nat.dvd_iff_prime_pow_dvd_dvd]
  refine forall₄_congr fun p k prime divides => ?_
  cases k with
  | zero => simp
  | succ k =>
    have factored : p ∣ size := (dvd_pow_self p k.succ_ne_zero).trans divides
    have four : p = 2 → 4 ∣ factor - 1 := fun two => thorough.four_dvd_pred (two ▸ factored)
    rw [← Int.natCast_dvd, Nat.cast_pow, pow_dvd_iff_le_emultiplicity, pow_dvd_iff_le_emultiplicity,
      emultiplicity_powers prime (thorough.dvd_pred p prime factored) four]

theorem coprime_factor : Nat.Coprime size factor.natAbs :=
  Nat.coprime_of_dvd fun p prime factored divides =>
    not_dvd_of_dvd_pred prime (thorough.dvd_pred p prime factored) (Int.natCast_dvd.mpr divides)

/-- The way from a state to the next one has no divisor in common with the size. -/
theorem coprime_moved (state : Int) : Nat.Coprime size (state * (factor - 1) + addend).natAbs := by
  refine Nat.coprime_of_dvd fun p prime factored divides => ?_
  have multiple : (p : Int) ∣ state * (factor - 1) :=
    dvd_mul_of_dvd_right (thorough.dvd_pred p prime factored) state
  have shared : (p : Int) ∣ addend := (dvd_add_right multiple).mp (Int.natCast_dvd.mpr divides)
  exact Nat.not_coprime_of_dvd_of_dvd prime.one_lt factored (Int.natCast_dvd.mp shared) thorough.coprime

/-- No two states that differ by less than the size are followed by the same one. -/
theorem advance_eq_iff (positive : 0 < size) {state state' : Int} :
    advance factor addend size state = advance factor addend size state' ↔ state ≡ state' [ZMOD size] := by
  constructor
  · intro same
    have multiples : state * factor ≡ state' * factor [ZMOD size] := Int.ModEq.add_right_cancel' _ same
    have cancelled := Int.ModEq.cancel_right_div_gcd (mod_cast positive) multiples
    have gcd : Int.gcd size factor = 1 := thorough.coprime_factor
    rwa [gcd, Nat.cast_one, Int.ediv_one] at cancelled
  · intro alike
    exact (alike.mul_right factor).add_right addend

/-- A state comes again after multiples of the size, and only then. -/
theorem iterate_modEq_iff (state : Int) (count : Nat) :
    (advance factor addend size)^[count] state ≡ state [ZMOD size] ↔ size ∣ count := by
  have moved : state * factor ^ count + addend * ∑ i ∈ range count, factor ^ i - state =
      (∑ i ∈ range count, factor ^ i) * (state * (factor - 1) + addend) := by
    linear_combination -state * geom_sum_mul factor count
  have reached : (advance factor addend size)^[count] state ≡
      state * factor ^ count + addend * ∑ i ∈ range count, factor ^ i [ZMOD size] :=
    iterate_advance_modEq state count
  calc (advance factor addend size)^[count] state ≡ state [ZMOD size]
      ↔ state * factor ^ count + addend * ∑ i ∈ range count, factor ^ i ≡ state [ZMOD size] :=
        ⟨reached.symm.trans, reached.trans⟩
    _ ↔ (size : Int) ∣ (∑ i ∈ range count, factor ^ i) * (state * (factor - 1) + addend) := by
        rw [Int.modEq_comm, Int.modEq_iff_dvd, moved]
    _ ↔ (size : Int) ∣ ∑ i ∈ range count, factor ^ i := by
        rw [Int.natCast_dvd, Int.natAbs_mul, (thorough.coprime_moved state).dvd_mul_right,
          Int.natCast_dvd]
    _ ↔ size ∣ count := thorough.dvd_powers_iff count

variable (positive : 0 < size) {state : Int} (inside : state ∈ Set.Ico 0 (size : Int))
include positive inside

/-- A state comes back after so many steps just if the size divides their number. -/
theorem isPeriodicPt_iff (count : Nat) :
    Function.IsPeriodicPt (advance factor addend size) count state ↔ size ∣ count := by
  have reached : (advance factor addend size)^[count] state ∈ Set.Ico 0 (size : Int) :=
    iterate_advance_mem inside positive count
  rw [← thorough.iterate_modEq_iff state count, Int.ModEq, Int.emod_eq_of_lt reached.1 reached.2,
    Int.emod_eq_of_lt inside.1 inside.2]
  rfl

/-- Steps that lead to one state from another lie a multiple of the size apart. -/
theorem injOn_iterate (start : Nat) :
    Set.InjOn (fun count => (advance factor addend size)^[count] state) (Set.Ico start (start + size)) := by
  have apart {i j : Nat} (le : i ≤ j) (near : j < i + size)
      (same : (advance factor addend size)^[i] state = (advance factor addend size)^[j] state) : i = j := by
    obtain ⟨d, rfl⟩ := Nat.exists_eq_add_of_le le
    have reached : (advance factor addend size)^[i] state ∈ Set.Ico 0 (size : Int) :=
      iterate_advance_mem inside positive i
    rw [Nat.add_comm, Function.iterate_add_apply] at same
    have divides : size ∣ d := (thorough.isPeriodicPt_iff positive reached d).mp same.symm
    have none_ : d = 0 := Nat.eq_zero_of_dvd_of_lt divides (by omega)
    rw [none_, Nat.add_zero]
  rintro i ⟨fromI, toI⟩ j ⟨fromJ, toJ⟩ same
  rcases Nat.le_total i j with le | le
  · exact apart le (by omega) same
  · exact (apart le (by omega) same.symm).symm

/-- As many steps as the size lead through all states, each once. No state comes twice, and there are as
many states as steps. -/
theorem bijOn_iterate (start : Nat) :
    Set.BijOn (fun count => (advance factor addend size)^[count] state) (Set.Ico start (start + size))
      (Set.Ico 0 (size : Int)) := by
  have maps : Set.MapsTo (fun count => (advance factor addend size)^[count] state)
      (Set.Ico start (start + size)) (Set.Ico 0 (size : Int)) :=
    fun count _ => iterate_advance_mem inside positive count
  have injective := thorough.injOn_iterate positive inside start
  refine ⟨maps, injective, ?_⟩
  rw [← coe_Ico, ← coe_Ico] at maps ⊢
  rw [← coe_Ico] at injective
  exact Finset.surjOn_of_injOn_of_card_le _ maps injective (by simp)

end IsThorough

theorem step_eq_advance : step = advance 9301 49297 modulus := rfl

theorem modulus_pos : 0 < modulus := by decide

/-- The generator leaves no state out: the primes of its modulus are 2, 3 and 5, the first two of them
six times. -/
theorem isThorough_step : IsThorough 9301 49297 modulus where
  coprime := by decide
  dvd_pred := by
    intro p prime factored
    have power : modulus ∣ 9300 ^ 6 := by norm_num [modulus]
    have pred : p ∣ 9300 := prime.dvd_of_dvd_pow (factored.trans power)
    exact Int.natCast_dvd_natCast.mpr pred
  four_dvd_pred := fun _ => by norm_num

/-- The states of the generator from a seed: after the first draw, after the second and so on. -/
def states (seed : Int) (drawn : Nat) : Int := step^[drawn + 1] seed

theorem states_add (seed : Int) (start count : Nat) :
    states seed (start + count) = step^[count] (states seed start) := by
  rw [states, states, ← Function.iterate_add_apply, Nat.add_right_comm, Nat.add_comm]

theorem states_mem (seed : Int) (drawn : Nat) : states seed drawn ∈ Set.Ico 0 (modulus : Int) := by
  rw [states, Function.iterate_succ_apply']
  exact step_bounds _

/-- Two seeds have the same states just if they are the same up to multiples of the modulus. -/
theorem states_eq_iff {seed other : Int} : states other = states seed ↔ other ≡ seed [ZMOD modulus] := by
  rw [← isThorough_step.advance_eq_iff modulus_pos, ← step_eq_advance]
  constructor
  · intro same
    exact congrFun same 0
  · intro same
    funext drawn
    exact congrArg step^[drawn] same

theorem periodic_states_iff (seed : Int) (p : Nat) : Function.Periodic (states seed) p ↔ modulus ∣ p := by
  have repeats (drawn : Nat) : states seed (drawn + p) = states seed drawn ↔ modulus ∣ p := by
    rw [states_add, step_eq_advance]
    exact isThorough_step.isPeriodicPt_iff modulus_pos (states_mem seed drawn) p
  exact ⟨fun periodic => (repeats 0).mp (periodic 0), fun divides drawn => (repeats drawn).mpr divides⟩

theorem bijOn_states (seed : Int) (start : Nat) :
    Set.BijOn (states seed) (Set.Ico start (start + modulus)) (Set.Ico 0 (modulus : Int)) := by
  have cycle := isThorough_step.bijOn_iterate modulus_pos (step_bounds seed) start
  rw [← step_eq_advance] at cycle
  exact cycle

theorem ofSeed_of_ne_zero {seed : Int} (given : seed ≠ 0) : ofSeed seed = .seeded seed := by
  rw [ofSeed, if_neg given]

/-- A source started from a seed is at the states of that seed, one draw after the other. -/
theorem later_ofSeed {seed : Int} (given : seed ≠ 0) (drawn : Nat) :
    (ofSeed seed).later (drawn + 1) = .seeded (states seed drawn) := by
  rw [ofSeed_of_ne_zero given, later_seeded, states]

/-- From any seed but zero, of whatever size and sign, each draw gives the state that it leaves behind as
a share between zero and one. The remainder of the seed alone decides which states these are. They begin
again after as many draws as there are states and not before, and as many draws in a row, wherever they
start, go through each state once. -/
theorem states_full_cycle {seed : Int} (given : seed ≠ 0) :
    (∀ drawn, ((ofSeed seed).later drawn).next =
      (share (states seed drawn), .seeded (states seed drawn))) ∧
    (∀ drawn, states seed drawn ∈ Set.Ico 0 (modulus : Int)) ∧ (ofSeed seed).DrawsInUnit ∧
    (∀ other ≠ 0, (∀ drawn, (ofSeed other).later (drawn + 1) = (ofSeed seed).later (drawn + 1)) ↔
      other ≡ seed [ZMOD modulus]) ∧
    IsLeast {p | 0 < p ∧ Function.Periodic (states seed) p} modulus ∧
    ∀ start, Set.BijOn (states seed) (Set.Ico start (start + modulus)) (Set.Ico 0 (modulus : Int)) := by
  have start : ofSeed seed = .seeded seed := ofSeed_of_ne_zero given
  refine ⟨fun drawn => ?_, states_mem seed, ?_, fun other given' => ?_, ⟨⟨modulus_pos, ?_⟩, ?_⟩,
    bijOn_states seed⟩
  · rw [start, later_seeded, next, states, Function.iterate_succ_apply']
  · rw [start]
    exact drawsInUnit_seeded seed
  · rw [← states_eq_iff, funext_iff]
    refine forall_congr' fun drawn => ?_
    rw [later_ofSeed given, later_ofSeed given', seeded.injEq]
  · exact (periodic_states_iff seed modulus).mpr dvd_rfl
  · rintro p ⟨positive, periodic⟩
    exact Nat.le_of_dvd positive ((periodic_states_iff seed p).mp periodic)

theorem negative_full_cycle : (-1 : Int) ≠ 0 ∧ (233280 * 10 ^ 30 - 1 : Int) ≠ 0 ∧
    (ofSeed (-1)).next = (share 39996, .seeded 39996) ∧
    (∀ drawn, (ofSeed (233280 * 10 ^ 30 - 1)).later (drawn + 1) = (ofSeed (-1)).later (drawn + 1)) ∧
    IsLeast {p | 0 < p ∧ Function.Periodic (states (-1)) p} modulus ∧
    Set.BijOn (states (-1)) (Set.Ico 5 (5 + modulus)) (Set.Ico 0 (modulus : Int)) := by
  have given : (-1 : Int) ≠ 0 := by decide
  have given' : (233280 * 10 ^ 30 - 1 : Int) ≠ 0 := by decide
  have alike : 233280 * 10 ^ 30 - 1 ≡ -1 [ZMOD modulus] := by decide
  obtain ⟨draws, _, _, same, period, cycle⟩ := states_full_cycle given
  exact ⟨given, given', draws 0, (same _ given').mpr alike, period, cycle 5⟩

end Colloquy.RandomSource
