import Colloquy.Proofs.Regex.Opening
import Colloquy.Proofs.Regex.Run

/-! What captures of any text take: as much as leaves a match for what follows. -/

namespace Colloquy.Regex

open Text

variable {text : List Char} {k : Next} {captures : List (Nat × Span)} {i number : Nat} {r : Progress}

/-- Whether a rest matches depends on its place only, and blanks before it may be left out. -/
structure Settles (text : List Char) (k : Next) (fits : Nat → Prop) : Prop where
  isSome_iff : ∀ i captures, i ≤ text.length →
    ((k ⟨placeAt text i, captures⟩).isSome ↔ fits i)
  past : ∀ i, i ≤ text.length → fits i → fits (pastBlanks text i)

variable {fits : Nat → Prop}

theorem blankTest_accepts : blankTest.accepts = isBlank := by
  funext c
  simp [blankTest, CharTest.accepts, SetItem.has, CharClass.has]

/-- Blanks are left out as far as they go. -/
theorem matchThen_blanks (settled : Settles text k fits) (inside : i ≤ text.length) :
    matchThen blanks k ⟨placeAt text i, captures⟩ =
      k ⟨placeAt text (pastBlanks text i), captures⟩ := by
  rw [blanks]
  cases found : matchThen (.run blankTest 0 none) k ⟨placeAt text i, captures⟩ with
  | none =>
    symm
    by_contra further
    have passes : Passes blankTest.accepts text i (pastBlanks text i) := by
      rw [blankTest_accepts]
      exact pastBlanks_passes inside
    have reached := (matchThen_run_isSome_iff inside).mpr
      ⟨_, passes, Option.isSome_iff_ne_none.mpr further⟩
    rw [found] at reached
    contradiction
  | some r =>
    obtain ⟨j, passes, here, last⟩ := matchThen_run_some inside found
    rw [blankTest_accepts] at passes last
    have onward := pastBlanks_passes passes.inside
    rw [pastBlanks_of_passes passes]
    rcases Nat.eq_or_lt_of_le onward.ordered with stays | moves
    · rw [← stays, here]
    · have fitsHere := (settled.isSome_iff j captures passes.inside).mp (by rw [here]; rfl)
      have fitsOnward := (settled.isSome_iff _ captures onward.inside).mpr
        (settled.past j passes.inside fitsHere)
      rw [last _ moves onward] at fitsOnward
      contradiction

theorem Settles.blanks (settled : Settles text k fits) :
    Settles text (matchThen blanks k) fun i => fits (pastBlanks text i) where
  isSome_iff i captures inside := by
    rw [matchThen_blanks settled inside]
    exact settled.isSome_iff _ captures (pastBlanks_passes inside).inside
  past i inside here := by rwa [pastBlanks_pastBlanks inside]

theorem passes_line (line : '\n' ∉ text) {j : Nat} :
    Passes CharTest.notNewline.accepts text i j ↔ i ≤ j ∧ j ≤ text.length := by
  constructor
  · exact fun passes => ⟨passes.ordered, passes.inside⟩
  · rintro ⟨ordered, inside⟩
    refine ⟨ordered, inside, fun n c _ _ found => bne_iff_ne.mpr ?_⟩
    rintro rfl
    exact line (List.mem_of_getElem? found)

/-- A group of any text with what follows it, given the number of the group. -/
def groupThen (number : Nat) (k : Next) : Next := matchThen (.group number anyText) k

theorem groupThen_eq : groupThen number k ⟨placeAt text i, captures⟩ =
    matchThen anyText (fun q => k (q.capture number (text.drop i)))
      ⟨placeAt text i, captures⟩ := rfl

/-- A group of any text matches just if the rest does from some place up to the end. -/
theorem groupThen_isSome_iff (line : '\n' ∉ text) (settled : Settles text k fits)
    (inside : i ≤ text.length) : (groupThen number k ⟨placeAt text i, captures⟩).isSome ↔
      ∃ j, i ≤ j ∧ j ≤ text.length ∧ fits j := by
  rw [groupThen_eq, anyText, matchThen_run_isSome_iff inside]
  refine exists_congr fun j => ?_
  rw [passes_line line, and_assoc]
  refine and_congr_right fun _ => and_congr_right fun within => ?_
  exact settled.isSome_iff j _ within

/-- A group of any text takes all up to the last place from which the rest is matched. -/
theorem groupThen_some (line : '\n' ∉ text) (settled : Settles text k fits)
    (inside : i ≤ text.length) (found : groupThen number k ⟨placeAt text i, captures⟩ = some r) :
    ∃ j, i ≤ j ∧ j ≤ text.length ∧
      k ⟨placeAt text j, (number, ⟨text.drop i, text.drop j⟩) :: captures⟩ = some r ∧
      ∀ j', j < j' → j' ≤ text.length → ¬fits j' := by
  rw [groupThen_eq] at found
  obtain ⟨j, passes, reached, last⟩ := matchThen_run_some inside found
  refine ⟨j, passes.ordered, passes.inside, reached, fun j' later within further => ?_⟩
  have nowhere := last j' later ((passes_line line).mpr ⟨Nat.le_of_lt later, within⟩)
  have somewhere : (k (Progress.capture ⟨placeAt text j', captures⟩ number (text.drop i))).isSome :=
    (settled.isSome_iff j' _ within).mpr further
  rw [nowhere] at somewhere
  contradiction

/-- A capture with what follows it: blanks are left out on both sides of the group. -/
def captureThen (number : Nat) (k : Next) : Next :=
  matchThen blanks (groupThen number (matchThen blanks k))

theorem Settles.group (line : '\n' ∉ text) (settled : Settles text k fits) :
    Settles text (groupThen number (matchThen Regex.blanks k))
      fun i => ∃ j, i ≤ j ∧ j ≤ text.length ∧ fits (pastBlanks text j) where
  isSome_iff i captures inside := groupThen_isSome_iff line settled.blanks inside
  past i inside := by
    rintro ⟨j, ordered, within, here⟩
    refine ⟨pastBlanks text j, pastBlanks_mono ordered within, ?_, ?_⟩
    · exact (pastBlanks_passes within).inside
    · rwa [pastBlanks_pastBlanks within]

/-- A capture leads to every place from which the rest is matched. -/
theorem captureThen_isSome_iff (line : '\n' ∉ text) (settled : Settles text k fits)
    (inside : i ≤ text.length) : (captureThen number k ⟨placeAt text i, captures⟩).isSome ↔
      ∃ j, i ≤ j ∧ j ≤ text.length ∧ fits j := by
  have start := pastBlanks_passes inside
  rw [captureThen, matchThen_blanks (settled.group line) inside,
    (settled.group line).isSome_iff _ captures start.inside]
  constructor
  · rintro ⟨j, ordered, within, here⟩
    have onward := pastBlanks_passes within
    have ordered : i ≤ pastBlanks text j :=
      Nat.le_trans start.ordered (Nat.le_trans ordered onward.ordered)
    exact ⟨pastBlanks text j, ordered, onward.inside, here⟩
  · rintro ⟨j, ordered, within, here⟩
    refine ⟨pastBlanks text j, pastBlanks_mono ordered within, ?_, ?_⟩
    · exact (pastBlanks_passes within).inside
    · rw [pastBlanks_pastBlanks within]
      exact settled.past j within here

/-- A capture takes all from the first character that is not blank to the last place from which the rest
is matched. If blanks followed the group, it could have taken them as well. -/
theorem captureThen_some (line : '\n' ∉ text) (settled : Settles text k fits)
    (inside : i ≤ text.length) (found : captureThen number k ⟨placeAt text i, captures⟩ = some r) :
    ∃ j, i ≤ j ∧ j ≤ text.length ∧
      k ⟨placeAt text j,
        (number, ⟨text.drop (pastBlanks text i), text.drop j⟩) :: captures⟩ = some r ∧
      ∀ j', j < j' → j' ≤ text.length → ¬fits j' := by
  have start := pastBlanks_passes inside
  rw [captureThen, matchThen_blanks (settled.group line) inside] at found
  obtain ⟨j, ordered, within, reached, last⟩ :=
    groupThen_some line settled.blanks start.inside found
  rw [matchThen_blanks settled within] at reached
  have onward := pastBlanks_passes within
  have stays : pastBlanks text j = j := by
    by_contra moves
    have further := Nat.lt_of_le_of_ne onward.ordered (Ne.symm moves)
    refine last (pastBlanks text j) further onward.inside ?_
    rw [pastBlanks_pastBlanks within]
    exact (settled.isSome_iff _ _ onward.inside).mp (by rw [reached]; rfl)
  rw [stays] at reached
  refine ⟨j, Nat.le_trans start.ordered ordered, within, reached, fun j' later within' fits => ?_⟩
  exact last j' later within' (settled.past j' within' fits)

end Colloquy.Regex
