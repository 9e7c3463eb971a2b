import Colloquy.Proofs.Text.Place
import Colloquy.Regex.Match
import Mathlib.Data.List.Basic
import Mathlib.Tactic.Choose

/-! What an expression matches from a place on: it goes through some ways to match, one after the
other, and takes the first with which the rest can be matched. -/

namespace Colloquy.Regex

open Text

/-- Whether a match has got from one state to another, in the same text. -/
structure Onward (p q : Progress) : Prop where
  text : q.place.text = p.place.text
  further : p.place.before.length ≤ q.place.before.length

/-- Whether some states after `p` are tried one after the other. -/
def Tries (p : Progress) (m : Next → Option Progress) : Prop :=
  ∃ qs : List Progress, (∀ k, m k = qs.findSome? k) ∧ ∀ q ∈ qs, Onward p q

variable {p q : Progress} {k : Next} {m m' : Next → Option Progress}

theorem Onward.refl (p : Progress) : Onward p p := ⟨rfl, Nat.le_refl _⟩

/-- From one state to a second and on to a third. -/
theorem Onward.trans {r : Progress} (first : Onward p q) (second : Onward q r) : Onward p r :=
  ⟨second.text.trans first.text, Nat.le_trans first.further second.further⟩

theorem onward_next {c : Char} {before after : List Char} {captures captures' : List (Nat × Span)} :
    Onward ⟨⟨before, c :: after⟩, captures⟩ ⟨⟨c :: before, after⟩, captures'⟩ :=
  ⟨by simp [Cursor.text], Nat.le_succ _⟩

theorem onward_forward {n : Nat} {place place' : Cursor} {captures captures' : List (Nat × Span)}
    (reached : place.forward? n = some place') : Onward ⟨place, captures⟩ ⟨place', captures'⟩ := by
  induction n generalizing place captures with
  | zero =>
    cases reached
    exact ⟨rfl, Nat.le_refl _⟩
  | succ n ih =>
    match place, reached with
    | ⟨before, c :: after⟩, reached =>
      have later : Onward ⟨⟨c :: before, after⟩, captures'⟩ ⟨place', captures'⟩ := ih reached
      exact onward_next.trans later

namespace Tries

theorem step (onward : Onward p q) : Tries p fun k => k q := by
  refine ⟨[q], fun k => by simp, fun r member => ?_⟩
  rw [List.mem_singleton.mp member]
  exact onward

theorem here (p : Progress) : Tries p fun k => k p := step (.refl p)

theorem nowhere (p : Progress) : Tries p fun _ => none := ⟨[], fun _ => rfl, nofun⟩

theorem from_ (onward : Onward p q) (tries : Tries q m) : Tries p m := by
  obtain ⟨qs, first, later⟩ := tries
  exact ⟨qs, first, fun r member => onward.trans (later r member)⟩

theorem orElse (first : Tries p m) (second : Tries p m') :
    Tries p fun k => match m k with
      | some result => some result
      | none => m' k := by
  obtain ⟨qs, tried, onward⟩ := first
  obtain ⟨qs', tried', onward'⟩ := second
  refine ⟨qs ++ qs', fun k => ?_, fun q member => ?_⟩
  · rw [List.findSome?_append, ← tried, ← tried']
    dsimp only
    cases m k <;> rfl
  · rcases List.mem_append.mp member with inside | inside
    · exact onward q inside
    · exact onward' q inside

/-- What comes next is tried after each of the states in turn. -/
theorem bind {next : Progress → Next → Option Progress} (first : Tries p m)
    (second : ∀ q, Tries q (next q)) : Tries p fun k => m fun q => next q k := by
  obtain ⟨qs, tried, onward⟩ := first
  choose rs tried' onward' using second
  refine ⟨qs.flatMap rs, fun k => ?_, fun r member => ?_⟩
  · dsimp only
    rw [tried]
    clear tried onward
    induction qs with
    | nil => rfl
    | cons q qs ih =>
      rw [List.flatMap_cons, List.findSome?_append, List.findSome?_cons, ← tried', ← ih]
      cases next q k <;> rfl
  · obtain ⟨q, inside, member⟩ := List.mem_flatMap.mp member
    exact (onward q inside).trans (onward' q r member)

theorem onward_of_some (tries : Tries p m) (found : m some = some q) : Onward p q := by
  obtain ⟨qs, tried, onward⟩ := tries
  rw [tried] at found
  obtain ⟨r, member, same⟩ := List.exists_of_findSome?_eq_some found
  exact Option.some.inj same ▸ onward r member

/-- Only the first of the states is tried where there is no going back. -/
theorem commit (tries : Tries p m) : Tries p fun k => (m some).bind k := by
  cases found : m some with
  | none => exact nowhere p
  | some q => exact step (tries.onward_of_some found)

theorem guard {c : Prop} [Decidable c] (tries : Tries p m) :
    Tries p fun k => if c then m k else none := by
  by_cases holds : c
  · simpa only [if_pos holds] using tries
  · simpa only [if_neg holds] using nowhere p

/-- A way of matching is known by some states: it succeeds just if what follows does from one of them. -/
theorem isSome_iff_exists (tries : Tries p m) : ∃ qs : List Progress, (∀ q ∈ qs, Onward p q) ∧
    ∀ k, (m k).isSome ↔ ∃ q ∈ qs, (k q).isSome := by
  obtain ⟨qs, tried, onward⟩ := tries
  exact ⟨qs, onward, fun k => by rw [tried, List.findSome?_isSome_iff]⟩

end Tries

/-- What a run of one test goes through: the states after each number of characters that it may take. -/
theorem runFrom_tries (test : CharTest) (least : Nat) (most : Option Nat)
    (captures : List (Nat × Span)) (before after : List Char) :
    Tries ⟨⟨before, after⟩, captures⟩ fun k =>
      runFrom test (fun before after => k ⟨⟨before, after⟩, captures⟩) least most before after := by
  induction after generalizing least most before with
  | nil => exact (Tries.here _).guard
  | cons c after ih =>
    have stay : Tries ⟨⟨before, c :: after⟩, captures⟩ fun k =>
        if least = 0 then k ⟨⟨before, c :: after⟩, captures⟩ else none := (Tries.here _).guard
    simp only [runFrom]
    split
    · exact (Tries.from_ onward_next (ih _ _ _)).orElse stay
    · exact stay

/-- What a loop goes through, given what a round goes through: a possessive one keeps to the first way
that a round takes. -/
theorem loopFrom_tries {round : Next → Next} (rounds : ∀ p, Tries p fun k => round k p)
    (greed : Greed) (steps least : Nat) (most : Option Nat) (last : Option (List Char))
    (p : Progress) : Tries p fun k => loopFrom greed round k steps least most last p := by
  induction steps generalizing least most last p with
  | zero => exact (Tries.here p).guard
  | succ steps ih =>
    by_cases needed : 0 < least
    · simp only [loopFrom, if_pos needed]
      cases greed with
      | possessive => exact (rounds p).commit.bind fun q => ih _ _ _ q
      | greedy => exact (rounds p).bind fun q => ih _ _ _ q
      | lazy => exact (rounds p).bind fun q => ih _ _ _ q
    · simp only [loopFrom, if_neg needed]
      split
      · exact .here p
      · cases greed with
        | greedy => exact ((rounds p).bind fun q => ih _ _ _ q).orElse (.here p)
        | lazy => exact (Tries.here p).orElse ((rounds p).bind fun q => ih _ _ _ q)
        | possessive =>
          cases once : round some p with
          | none => exact .here p
          | some q =>
            have onward := (rounds p).onward_of_some once
            dsimp only
            split
            · exact .step onward
            · exact .from_ onward (ih _ _ _ q)

/-- What a match from a place on goes through. A look goes no further, and only its captures are kept. -/
theorem matchThen_tries (r : Regex) (p : Progress) : Tries p fun k => matchThen r k p := by
  induction r generalizing p with
  | empty => exact .here p
  | never => exact .nowhere p
  | one test =>
    obtain ⟨⟨before, after⟩, captures⟩ := p
    cases after with
    | nil => exact .nowhere _
    | cons c after => exact (Tries.step onward_next).guard
  | seq a b first second => exact (first p).bind second
  | alt a b first second => exact (first p).orElse (second p)
  | run test least most => exact runFrom_tries test least most p.captures p.place.before p.place.after
  | loop greed least most body ih => exact loopFrom_tries ih greed _ least most none p
  | group i body ih => exact (ih p).bind fun q => .step ⟨rfl, Nat.le_refl _⟩
  | back i foldCase =>
    simp only [matchThen]
    cases p.captured? i with
    | none => exact .nowhere p
    | some text =>
      dsimp only
      cases reached : p.place.forward? text.length with
      | none => exact .nowhere p
      | some place => exact (Tries.step (onward_forward reached)).guard
  | ifGroup i present absent first second =>
    simp only [matchThen]
    split
    · exact first p
    · exact second p
  | look behind negated body ih =>
    simp only [matchThen]
    split
    · exact (Tries.here p).guard
    · split
      · next q _ =>
        cases negated with
        | true => exact .nowhere p
        | false => exact .step ⟨rfl, Nat.le_refl _⟩
      · exact (Tries.here p).guard
  | anchor a => exact (Tries.here p).guard
  | atomic body ih => exact (ih p).commit

end Colloquy.Regex
