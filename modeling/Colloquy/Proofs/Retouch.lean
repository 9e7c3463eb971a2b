import Mathlib.Data.List.Infix
import Colloquy.Proofs.Reassembly
import Colloquy.Proofs.Text.Departure

/-! Replies that depart from a text. A template that does so with the characters before its first
capture does so whatever is captured; and a retouching whose replacement departs from every end of the
text leaves a reply that departs. -/

namespace Colloquy

open Text

variable {other text : List Char}

namespace Template

variable {texts : Nat → Except Breakdown (List Char)}

def lead : List Piece → List Char
  | .char c :: rest => c :: lead rest
  | _ => []

theorem lead_isPrefix_of_fill {ps : List Piece} (filled : fill texts ps = .ok text) :
    lead ps <+: text := by
  induction ps generalizing text with
  | nil => exact List.nil_prefix
  | cons p rest ih =>
    cases p with
    | capture digits => exact List.nil_prefix
    | char c =>
      rw [fill] at filled
      cases more : fill texts rest with
      | error b =>
        rw [more] at filled
        contradiction
      | ok later =>
        rw [more] at filled
        cases filled
        exact (List.prefix_cons_inj c).mpr (ih more)

/-- Whether the number of a capture can be read for sure. -/
def Piece.isShort : Piece → Bool
  | .char _ => true
  | .capture digits => digits.length ≤ digitLimit

/-- Whether a template can be filled for sure, and gives replies that depart from a text. -/
def departs (other template : List Char) : Bool :=
  (piecesFrom none template).all Piece.isShort &&
    Text.departs (settled (lead (piecesFrom none template))) other

/-- What a template that departs from a text is filled to is apart from it when tidied. -/
theorem apart_of_fill {template : String} (apart : departs other template.toList = true)
    (filled : fill texts (pieces template) = .ok text) : Apart other (tidy text) := by
  obtain ⟨more, rfl⟩ := lead_isPrefix_of_fill filled
  have lead_ : Apart other (lead (pieces template)) := (Bool.and_eq_true _ _ ▸ apart : _ ∧ _).2
  exact (lead_.append more).tidy

end Template

namespace Reassembly

/-- Whether a reassembly gives replies that depart from a text, if it gives any. -/
def departs (other : List Char) : Reassembly → Bool
  | .literal template => Template.departs other template.toList
  | .redirect _ _ => true

end Reassembly

namespace Regex.Template

def opening : List Piece → List Char
  | .char c :: rest => c :: opening rest
  | _ => []

theorem opening_isPrefix (m : Match) (ps : List Piece) : opening ps <+: ps.flatMap (·.render m) := by
  induction ps with
  | nil => exact List.nil_prefix
  | cons p rest ih =>
    cases p with
    | group index => exact List.nil_prefix
    | char c => exact (List.prefix_cons_inj c).mpr ih

end Regex.Template

namespace Text.Cursor

variable {find : Bool → Cursor → Option (List Char × Cursor)}

/-- What is replaced from a place on departs from an end of the text if what stands there does. By
induction on the steps: a replacement departs at once, and a character that stays takes one of the other
text with it. -/
theorem departs_replaceFrom
    (each : ∀ nonempty c replacement stop, find nonempty c = some (replacement, stop) →
      ∀ left, left ≠ [] → left <:+ other → departs replacement left = true)
    (steps : Nat) (nonempty : Bool) (c : Cursor) {left : List Char} (ends : left <:+ other)
    (apart : departs c.after left = true) :
    departs (replaceFrom find steps nonempty c) left = true := by
  induction steps generalizing nonempty c left with
  | zero => exact apart
  | succ steps ih =>
    obtain ⟨before, after⟩ := c
    cases after with
    | nil => contradiction
    | cons x after =>
      cases left with
      | nil => contradiction
      | cons y left =>
        rw [replaceFrom]
        split
        · next replacement stop found =>
          exact departs_append (each _ _ _ _ found _ (List.cons_ne_nil y left) ends) _
        · rw [departs, Bool.or_eq_true] at apart ⊢
          exact apart.imp_right (ih _ _ ((List.suffix_cons y left).trans ends))

end Text.Cursor

namespace Retouch

/-- Whether the replacement of a retouching can be read, and departs from every end of a text. -/
def departs (other : List Char) (r : Retouch) : Bool :=
  match Regex.Template.parse r.expression r.replacement with
  | .ok pieces => other.tails.all fun left =>
    left.isEmpty || Text.departs (Regex.Template.opening pieces) left
  | .error _ => false

theorem pieces_of_departs {r : Retouch} (fits : r.departs other = true) :
    ∃ pieces, Regex.Template.parse r.expression r.replacement = .ok pieces ∧
      ∀ left, left ≠ [] → left <:+ other →
        Text.departs (Regex.Template.opening pieces) left = true := by
  rw [departs] at fits
  split at fits
  · next pieces read =>
    refine ⟨pieces, read, fun left some_ ends => ?_⟩
    have one := List.all_eq_true.mp fits left ((List.mem_tails _ _).mpr ends)
    have none : left.isEmpty = false := by simpa using some_
    rwa [none, Bool.false_or] at one
  · contradiction

theorem apply_ok_of_departs {r : Retouch} (fits : r.departs other = true) (text : List Char) :
    ∃ touched, r.apply text = .ok touched := by
  obtain ⟨pieces, read, _⟩ := pieces_of_departs fits
  exact ⟨_, by rw [apply, Regex.Expression.replace, read]; rfl⟩

/-- A retouching that departs from a text leads no other text to it. -/
theorem apply_departs {r : Retouch} (fits : r.departs other = true)
    (apart : Text.departs text other = true) :
    ∃ touched, r.apply text = .ok touched ∧ Text.departs touched other = true := by
  obtain ⟨pieces, read, each⟩ := pieces_of_departs fits
  refine ⟨_, by rw [apply, Regex.Expression.replace, read]; rfl, ?_⟩
  refine Cursor.departs_replaceFrom ?_ _ _ _ List.suffix_rfl apart
  intro nonempty place replacement stop found left some_ ends
  obtain ⟨m, _, same⟩ := Option.map_eq_some_iff.mp found
  cases same
  exact departs_of_isPrefix (Regex.Template.opening_isPrefix m pieces) (each left some_ ends)

/-- The last touches of a reply that is apart from a text do not lead to that text. -/
theorem polish_departs {retouches : List Retouch} (fit : ∀ r ∈ retouches, r.departs other = true)
    (capital : Bool) {reply : String} (apart : Apart other reply.toList) :
    ∃ polished, polish retouches capital reply = .ok polished ∧
      Text.departs polished.toList other = true := by
  have touched (text : List Char) (before : Text.departs text other = true) :
      ∃ touched, retouches.foldlM (fun text r => r.apply text) text = .ok touched ∧
        Text.departs touched other = true := by
    induction retouches generalizing text with
    | nil => exact ⟨text, rfl, before⟩
    | cons r rest ih =>
      obtain ⟨first, others⟩ := List.forall_mem_cons.mp fit
      obtain ⟨one, applied, departs⟩ := apply_departs first before
      obtain ⟨all, done, departs⟩ := ih others one departs
      exact ⟨all, by rw [List.foldlM_cons, applied]; exact done, departs⟩
  obtain ⟨all, done, departs⟩ := touched _ apart.tidy.departs
  have finished : polish retouches capital reply =
      .ok (String.ofList (if capital then capitalize all else all)) := by
    rw [polish, polishChars, done]
    rfl
  refine ⟨_, finished, ?_⟩
  rw [String.toList_ofList]
  split
  · exact departs_capitalize departs
  · exact departs

end Retouch
end Colloquy
