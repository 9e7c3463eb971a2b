import Mathlib.Data.List.Forall2
import Mathlib.Data.Option.Defs
import Colloquy.Regex.Match

/-! What an expression matches does not depend on a group that it does not refer to. -/

namespace Colloquy.Regex

open Text

/-- Whether an expression repeats what a group has captured. -/
def refersTo (index : Nat) : Regex → Bool
  | .empty | .never | .one _ | .run _ _ _ | .anchor _ => false
  | .seq a b | .alt a b | .ifGroup _ a b => a.refersTo index || b.refersTo index
  | .loop _ _ _ body | .group _ body | .look _ _ body | .atomic body => body.refersTo index
  | .back i _ => i == index

/-- Whether two captures are of one group and, unless it is the group left aside, of one text. -/
def SameBut (index : Nat) (a b : Nat × Span) : Prop := a.1 = b.1 ∧ (a.1 ≠ index → a.2 = b.2)

/-- Whether two matches have got equally far, the captures of one group left aside. -/
structure Alike (index : Nat) (p q : Progress) : Prop where
  place : p.place = q.place
  captures : List.Forall₂ (SameBut index) p.captures q.captures

/-- Whether two ways to go on lead equally far from where matches have got equally far. -/
def Agree (index : Nat) (k l : Next) : Prop :=
  ∀ p q, Alike index p q → Option.Rel (Alike index) (k p) (l q)

variable {index : Nat} {p q : Progress} {k l : Next}

namespace Alike

theorem isSome_lookup {as bs : List (Nat × Span)} (all : List.Forall₂ (SameBut index) as bs)
    (i : Nat) : (as.lookup i).isSome = (bs.lookup i).isSome := by
  induction all with
  | nil => rfl
  | @cons a b _ _ first _ ih =>
    rw [List.lookup_cons, List.lookup_cons, ← first.1]
    split
    · rfl
    · exact ih

theorem lookup_eq {as bs : List (Nat × Span)} (all : List.Forall₂ (SameBut index) as bs)
    {i : Nat} (other : i ≠ index) : as.lookup i = bs.lookup i := by
  induction all with
  | nil => rfl
  | @cons a b _ _ first _ ih =>
    rw [List.lookup_cons, List.lookup_cons, ← first.1]
    split
    · next same => rw [first.2 (beq_iff_eq.mp same ▸ other)]
    · exact ih

theorem at_place (alike : Alike index p q) (place : Cursor) :
    Alike index { p with place } { q with place } := ⟨rfl, alike.captures⟩

theorem capture (alike : Alike index p q) (i : Nat) (start : List Char) :
    Alike index (p.capture i start) (q.capture i start) := by
  refine ⟨alike.place, .cons ⟨rfl, fun _ => ?_⟩ alike.captures⟩
  rw [alike.place]

theorem samePlace (alike : Alike index p q) (after : List Char) :
    p.samePlace after = q.samePlace after := by
  rw [Progress.samePlace, alike.place, Progress.samePlace]

theorem isSome_captured? (alike : Alike index p q) (i : Nat) :
    (p.captured? i).isSome = (q.captured? i).isSome := by
  simp only [Progress.captured?, Option.isSome_map]
  exact isSome_lookup alike.captures i

theorem captured? (alike : Alike index p q) {i : Nat} (other : i ≠ index) :
    p.captured? i = q.captured? i := by
  rw [Progress.captured?, Progress.captured?, lookup_eq alike.captures other]

end Alike

/-! Ways to go on. -/

theorem rel_orElse {a b c d : Option Progress} : Option.Rel (Alike index) a b →
    Option.Rel (Alike index) c d →
    Option.Rel (Alike index) (match a with | some r => some r | none => c)
      (match b with | some r => some r | none => d) := by
  intro first second
  cases first with
  | some alike => exact .some alike
  | none => exact second

theorem rel_bind {a b : Option Progress} (first : Option.Rel (Alike index) a b)
    (agree : Agree index k l) : Option.Rel (Alike index) (a.bind k) (b.bind l) := by
  cases first with
  | some alike => exact agree _ _ alike
  | none => exact .none

theorem agree_some : Agree index some some := fun _ _ alike => .some alike

theorem runFrom_agree {k l : List Char → List Char → Option Progress}
    (agree : ∀ before after, Option.Rel (Alike index) (k before after) (l before after))
    (test : CharTest) (least : Nat) (most : Option Nat) (before after : List Char) :
    Option.Rel (Alike index) (runFrom test k least most before after)
      (runFrom test l least most before after) := by
  induction after generalizing least most before with
  | nil =>
    rw [runFrom, runFrom]
    split
    · exact agree before []
    · exact .none
  | cons c after ih =>
    rw [runFrom, runFrom]
    have here : Option.Rel (Alike index) (if least = 0 then k before (c :: after) else none)
        (if least = 0 then l before (c :: after) else none) := by
      split
      · exact agree before (c :: after)
      · exact .none
    split
    · exact rel_orElse (ih _ _ _) here
    · exact here

/-- A loop agrees with itself if its rounds do and what follows it does. -/
theorem loopFrom_agree {round : Next → Next}
    (rounds : ∀ k l, Agree index k l → Agree index (round k) (round l)) (agree : Agree index k l)
    (greed : Greed) (steps least : Nat) (most : Option Nat) (last : Option (List Char)) :
    Agree index (loopFrom greed round k steps least most last)
      (loopFrom greed round l steps least most last) := by
  induction steps generalizing least most last with
  | zero =>
    intro p q alike
    rw [loopFrom, loopFrom]
    split
    · exact agree p q alike
    · exact .none
  | succ steps ih =>
    intro p q alike
    have same : last.any p.samePlace = last.any q.samePlace := by
      cases last with
      | none => rfl
      | some after => exact alike.samePlace after
    by_cases needed : 0 < least
    · simp only [loopFrom, if_pos needed]
      cases greed with
      | possessive => exact rel_bind (rounds _ _ agree_some p q alike) (ih _ _ _)
      | greedy => exact rounds _ _ (ih _ _ _) p q alike
      | lazy => exact rounds _ _ (ih _ _ _) p q alike
    · simp only [loopFrom, if_neg needed, same, alike.place]
      split
      · exact agree p q alike
      · cases greed with
        | greedy => exact rel_orElse (rounds _ _ (ih _ _ _) p q alike) (agree p q alike)
        | lazy => exact rel_orElse (agree p q alike) (rounds _ _ (ih _ _ _) p q alike)
        | possessive =>
          have once := rounds _ _ agree_some p q alike
          generalize round some p = a at once ⊢
          generalize round some q = b at once ⊢
          cases once with
          | none => exact agree p q alike
          | some further =>
            simp only [further.samePlace]
            split
            · exact agree _ _ further
            · exact ih _ _ _ _ _ further

/-- What an expression matches does not depend on a group that it does not refer to. -/
theorem matchThen_agree {r : Regex} (free : r.refersTo index = false) (agree : Agree index k l) :
    Agree index (matchThen r k) (matchThen r l) := by
  induction r generalizing k l with
  | empty => exact agree
  | never => exact fun _ _ _ => .none
  | one test =>
    intro p q alike
    simp only [matchThen, alike.place]
    split
    · exact .none
    · split
      · exact agree _ _ (alike.at_place _)
      · exact .none
  | seq a b first second =>
    obtain ⟨free_a, free_b⟩ := Bool.or_eq_false_iff.mp free
    exact first free_a (second free_b agree)
  | alt a b first second =>
    obtain ⟨free_a, free_b⟩ := Bool.or_eq_false_iff.mp free
    exact fun p q alike => rel_orElse (first free_a agree p q alike) (second free_b agree p q alike)
  | run test least most =>
    intro p q alike
    simp only [matchThen, alike.place]
    exact runFrom_agree (fun _ _ => agree _ _ (alike.at_place _)) test least most _ _
  | loop greed least most body ih =>
    intro p q alike
    simp only [matchThen, alike.place]
    exact loopFrom_agree (fun _ _ => ih free) agree greed _ least most none p q alike
  | group i body ih =>
    intro p q alike
    simp only [matchThen, alike.place]
    exact ih free (fun _ _ alike => agree _ _ (alike.capture i _)) p q alike
  | back i foldCase =>
    intro p q alike
    have other : i ≠ index := by simpa [refersTo] using free
    simp only [matchThen, alike.captured? other, alike.place]
    split
    · exact .none
    · split
      · exact .none
      · split
        · exact agree _ _ (alike.at_place _)
        · exact .none
  | ifGroup i present absent first second =>
    obtain ⟨free_a, free_b⟩ := Bool.or_eq_false_iff.mp free
    intro p q alike
    simp only [matchThen, alike.isSome_captured? i]
    split
    · exact first free_a agree p q alike
    · exact second free_b agree p q alike
  | look behind negated body ih =>
    intro p q alike
    simp only [matchThen, alike.place]
    split
    · split
      · exact agree p q alike
      · exact .none
    · next place _ =>
      have seen := ih free agree_some _ _ (alike.at_place place)
      generalize matchThen body some { p with place } = a at seen ⊢
      generalize matchThen body some { q with place } = b at seen ⊢
      cases seen with
      | none =>
        cases negated with
        | true => exact agree p q alike
        | false => exact .none
      | some further =>
        cases negated with
        | true => exact .none
        | false => exact agree _ _ (further.at_place _)
  | anchor a =>
    intro p q alike
    simp only [matchThen, alike.place]
    split
    · exact agree p q alike
    · exact .none
  | atomic body ih => exact fun p q alike => rel_bind (ih free agree_some p q alike) agree

end Colloquy.Regex
