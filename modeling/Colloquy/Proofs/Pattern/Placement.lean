import Colloquy.Proofs.Pattern.Phrase
import Colloquy.Proofs.Text.Place
import Colloquy.Regex.Match

/-! Where phrases stand in a text, and what is around them. -/

namespace Colloquy.Pattern

open Text

/-- A stretch of a text, from one place to another. -/
structure Stretch where
  start : Nat
  stop : Nat

def Stretch.of (e : Stretch) (text : List Char) : List Char :=
  (text.drop e.start).take (e.stop - e.start)

/-- Whether a text consists of the words of a phrase, with any gaps between them. -/
def Phrase.Spells (p : Phrase) (text : List Char) : Prop :=
  ∃ q : Phrase, q.words = p.words ∧ q.text = text

/-- Whether a phrase stands in a stretch of a text, between word edges. -/
structure Phrase.Fills (p : Phrase) (text : List Char) (e : Stretch) : Prop where
  ordered : e.start ≤ e.stop
  inside : e.stop ≤ text.length
  spelled : p.Spells (e.of text)
  opens : (placeAt text e.start).atEdge = true
  closes : (placeAt text e.stop).atEdge = true

/-- Whether phrases stand in stretches of a text, one after the other, from a place on. -/
inductive Fits (text : List Char) : (low : Nat) → List Phrase → List Stretch → Prop
  | done {low : Nat} : Fits text low [] []
  | next {low : Nat} {p : Phrase} {rest : List Phrase} {e : Stretch} {more : List Stretch}
      (later : low ≤ e.start) (here : p.Fills text e) (others : Fits text e.stop rest more) :
      Fits text low (p :: rest) (e :: more)

/-- Whether stretches start further right than others: the first of them, or if those start at one
place, the second, and so on. -/
def Beyond (es others : List Stretch) : Prop :=
  List.Lex (· < ·) (others.map Stretch.start) (es.map Stretch.start)

/-- The stretches for phrases than which no others are further right. -/
structure Rightmost (text : List Char) (low : Nat) (phrases : List Phrase) (es : List Stretch) :
    Prop where
  fits : Fits text low phrases es
  last : ∀ others, Fits text low phrases others → ¬Beyond others es

/-- The text before, between and after stretches, from a place on. Each part begins with its first
character that is not blank. -/
def around (text : List Char) : (low : Nat) → List Stretch → List Regex.Span
  | low, [] => [⟨text.drop (pastBlanks text low), []⟩]
  | low, e :: rest =>
    ⟨text.drop (pastBlanks text low), text.drop e.start⟩ :: around text e.stop rest

variable {text : List Char} {low : Nat} {p : Phrase} {rest : List Phrase}

theorem fits_nil_iff {es : List Stretch} : Fits text low [] es ↔ es = [] := by
  constructor
  · rintro ⟨⟩
    rfl
  · rintro rfl
    exact .done

/-- Phrases fit from a place on just if the first one fills a stretch from there on, and the others fit
after it. -/
theorem exists_fits_cons_iff : (∃ es, Fits text low (p :: rest) es) ↔
    ∃ e, low ≤ e.start ∧ p.Fills text e ∧ ∃ es, Fits text e.stop rest es := by
  constructor
  · rintro ⟨_, fits⟩
    cases fits with
    | next later here others => exact ⟨_, later, here, _, others⟩
  · rintro ⟨e, later, here, es, others⟩
    exact ⟨e :: es, .next later here others⟩

/-- A phrase stands just where its words begin with gaps between them, up to where they end. -/
theorem Phrase.fills_iff {i j : Nat} (inside : i ≤ text.length) : p.Fills text ⟨i, j⟩ ↔
    (placeAt text i).atEdge = true ∧ (placeAt text j).atEdge = true ∧
      ∃ (q : Phrase) (left : List Char), q.words = p.words ∧ text.drop i = q.text ++ left ∧
        j = i + q.text.length := by
  constructor
  · rintro ⟨ordered, within, ⟨q, same, whole⟩, opens, closes⟩
    simp only [Stretch.of] at ordered within whole opens closes
    refine ⟨opens, closes, q, text.drop j, same, ?_, ?_⟩
    · rw [whole, ← Nat.add_sub_cancel' ordered, ← List.drop_drop, Nat.add_sub_cancel_left,
        List.take_append_drop]
    · rw [whole, List.length_take, List.length_drop]
      omega
  · rintro ⟨opens, closes, q, left, same, split, rfl⟩
    have lengths := congrArg List.length split
    rw [List.length_drop, List.length_append] at lengths
    refine ⟨Nat.le_add_right i _, by dsimp only; omega, ⟨q, same, ?_⟩, opens, closes⟩
    simp only [Stretch.of, split, Nat.add_sub_cancel_left, List.take_left']

/-- A phrase begins with a letter, so that no blank is left out before it. -/
theorem Phrase.Fills.pastBlanks {i j : Nat} (here : p.Fills text ⟨i, j⟩) :
    Text.pastBlanks text i = i := by
  have inside : i ≤ text.length := Nat.le_trans here.ordered here.inside
  obtain ⟨_, _, q, left, _, split, _⟩ := (Phrase.fills_iff inside).mp here
  obtain ⟨l, more, first⟩ := q.text_first
  have next : text[i]? = some l.val := by
    rw [← List.head?_drop, split, first]
    rfl
  refine (pastBlanks_eq_iff inside).mpr ⟨.here inside, fun c found => ?_⟩
  rw [next] at found
  exact Option.some.inj found ▸ isBlank_of_isWord l.property

end Colloquy.Pattern
