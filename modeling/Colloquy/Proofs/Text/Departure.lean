import Colloquy.Proofs.Text.Character
import Colloquy.Proofs.Text.Spacing
import Colloquy.Retouch

/-! Texts that depart from another text: somewhere both have a character, and the two differ in it by
more than a capital. That cannot be undone behind the place, so that it lasts through what the last
touches do to a reply. -/

namespace Colloquy.Text

variable {a b text other : List Char} {c d : Char}

/-- Whether two texts differ in a character that both have. Small ASCII letters count as capitals. -/
def departs : List Char → List Char → Bool
  | c :: text, d :: other => capitalOne c != capitalOne d || departs text other
  | _, _ => false

theorem departs_append (apart : departs a other = true) (b : List Char) :
    departs (a ++ b) other = true := by
  fun_induction departs a other with
  | case1 c a d other ih =>
    rw [List.cons_append, departs, Bool.or_eq_true]
    exact (Bool.or_eq_true _ _ ▸ apart).imp_right ih
  | case2 => contradiction

theorem departs_of_isPrefix (begins : a <+: text) (apart : departs a other = true) :
    departs text other = true := by
  obtain ⟨b, rfl⟩ := begins
  exact departs_append apart b

theorem ne_nil_of_departs (apart : departs text other = true) : text ≠ [] := by
  rintro rfl
  contradiction

theorem departs_irrefl (text : List Char) : departs text text = false := by
  induction text with
  | nil => rfl
  | cons c rest ih => simp [departs, ih]

/-- Texts of which one departs from the other are different. -/
theorem ne_of_departs (apart : departs text other = true) : text ≠ other := by
  rintro rfl
  rw [departs_irrefl] at apart
  contradiction

theorem capitalOne_capitalOne (c : Char) : capitalOne (capitalOne c) = capitalOne c := by
  cases small : isSmallLatin c with
  | false =>
    have same : capitalOne c = c := by rw [capitalOne, small, if_neg Bool.false_ne_true]
    rw [same, same]
  | true =>
    have bounded : c.toNat < 123 := by
      simp only [isSmallLatin, Bool.and_eq_true, decide_eq_true_eq] at small
      omega
    exact of_toNat_lt (fun c => capitalOne (capitalOne c) = capitalOne c) bounded (by decide)

theorem departs_capitalize (apart : departs text other = true) :
    departs (Retouch.capitalize text) other = true := by
  cases text with
  | nil => contradiction
  | cons c rest =>
    cases other with
    | nil => contradiction
    | cons d others => rwa [Retouch.capitalize, departs, capitalOne_capitalOne]

/-! Spacing. Some characters at the start of a text are left alone, whatever follows. -/

/-- Whether a blank before this text is left alone: it is the only one there, and before no period. -/
def keepsGap : List Char → Bool
  | [] => false
  | c :: _ => !isBlank c && c != '.'

def settled : List Char → List Char
  | [] => []
  | c :: rest => if !isBlank c || keepsGap rest then c :: settled rest else []

theorem settled_isPrefix (text : List Char) : settled text <+: text := by
  induction text with
  | nil => exact List.prefix_refl []
  | cons c rest ih =>
    rw [settled]
    split
    · exact (List.prefix_cons_inj c).mpr ih
    · exact List.nil_prefix

theorem keepsGap_append (keeps : keepsGap a = true) (b : List Char) : keepsGap (a ++ b) = true := by
  cases a with
  | nil => contradiction
  | cons c rest => exact keeps

theorem settled_append (a b : List Char) : settled a <+: settled (a ++ b) := by
  induction a with
  | nil => exact List.nil_prefix
  | cons c rest ih =>
    rw [List.cons_append, settled, settled]
    split
    · next stays =>
      have stays' : (!isBlank c || keepsGap (rest ++ b)) = true := by
        rw [Bool.or_eq_true] at stays ⊢
        exact stays.imp_right fun keeps => keepsGap_append keeps b
      rw [if_pos stays']
      exact (List.prefix_cons_inj c).mpr ih
    · exact List.nil_prefix

theorem keepsGap_settled (keeps : keepsGap text = true) : keepsGap (settled text) = true := by
  cases text with
  | nil => contradiction
  | cons d rest =>
    have solid := (Bool.and_eq_true _ _ ▸ keeps : _ ∧ _).1
    rwa [settled, solid, Bool.true_or, if_pos rfl]

theorem settled_settled (text : List Char) : settled (settled text) = settled text := by
  induction text with
  | nil => rfl
  | cons c rest ih =>
    rw [settled]
    split
    · next stays =>
      have stays' : (!isBlank c || keepsGap (settled rest)) = true := by
        rw [Bool.or_eq_true] at stays ⊢
        exact stays.imp_right keepsGap_settled
      rw [settled, if_pos stays', ih]
    · rfl

/-! Runs of a text with one more character in front. -/

/-- A character that is left alone joins a run without blanks, or is a run of its own; a blank is one
before a run that does not begin with a period. -/
theorem runs_cons (stays : (!isBlank c || keepsGap text) = true) :
    (∃ r more, runs isBlank text = r :: more ∧ r.kind = false ∧
        runs isBlank (c :: text) = ⟨false, c :: r.chars⟩ :: more) ∨
      runs isBlank (c :: text) = ⟨isBlank c, [c]⟩ :: runs isBlank text ∧
        (isBlank c = true → (runs isBlank text).head?.any (·.chars.head? == some '.') = false) := by
  rw [runs]
  cases text with
  | nil => exact .inr ⟨rfl, fun _ => rfl⟩
  | cons d rest =>
    obtain ⟨chars, more, begins⟩ := exists_runs_cons isBlank d rest
    rw [begins]
    dsimp only
    split
    · next same =>
      left
      cases blank : isBlank c with
      | false => exact ⟨_, more, rfl, same.trans blank, by rw [same, blank]⟩
      | true =>
        rw [blank, Bool.not_true, Bool.false_or, keepsGap, same, blank] at stays
        contradiction
    · right
      refine ⟨rfl, fun blank => ?_⟩
      rw [blank, Bool.not_true, Bool.false_or, keepsGap, Bool.and_eq_true] at stays
      simpa using stays.2

theorem collapse_cons (stays : (!isBlank c || keepsGap text) = true) :
    collapse (c :: text) = c :: collapse text := by
  refine collapse_cons_narrow fun blank d first => ?_
  obtain ⟨rest, rfl⟩ := List.head?_eq_some_iff.mp first
  rw [blank, Bool.not_true, Bool.false_or, keepsGap, Bool.and_eq_true] at stays
  simpa using stays.1

theorem keepsGap_collapse (keeps : keepsGap text = true) : keepsGap (collapse text) = true := by
  cases text with
  | nil => contradiction
  | cons d rest =>
    have solid := (Bool.and_eq_true _ _ ▸ keeps : _ ∧ _).1
    rwa [collapse_cons (by rw [solid, Bool.true_or])]

theorem closePeriods_runs_cons (stays : (!isBlank c || keepsGap text) = true) :
    closePeriods (runs isBlank (c :: text)) = c :: closePeriods (runs isBlank text) := by
  rcases runs_cons stays with ⟨r, more, begins, kind, joined⟩ | ⟨alone, period⟩
  · rw [joined, begins]
    cases more with
    | nil => rfl
    | cons s rest => simp [closePeriods, kind]
  · rw [alone]
    cases rest : runs isBlank text with
    | nil => rfl
    | cons s more =>
      have open_ : (isBlank c && s.chars.head? == some '.') = false := by
        cases blank : isBlank c with
        | false => rfl
        | true => simpa [rest] using period blank
      rw [closePeriods, open_]
      rfl

theorem tidy_cons (stays : (!isBlank c || keepsGap text) = true) : tidy (c :: text) = c :: tidy text := by
  have stays' : (!isBlank c || keepsGap (collapse text)) = true := by
    rw [Bool.or_eq_true] at stays ⊢
    exact stays.imp_right keepsGap_collapse
  rw [tidy, collapse_cons stays, closePeriods_runs_cons stays', tidy]

/-- The settled start of a text is still there after tidying. -/
theorem settled_isPrefix_tidy (text : List Char) : settled text <+: tidy text := by
  induction text with
  | nil => exact List.nil_prefix
  | cons c rest ih =>
    rw [settled]
    split
    · next stays =>
      rw [tidy_cons stays]
      exact (List.prefix_cons_inj c).mpr ih
    · exact List.nil_prefix

/-- Whether the start of a text that tidying leaves alone departs from another text. -/
def Apart (other text : List Char) : Prop := departs (settled text) other = true

theorem Apart.append (apart : Apart other a) (b : List Char) : Apart other (a ++ b) :=
  departs_of_isPrefix (settled_append a b) apart

/-- A text that is apart from another stays so when it is tidied. -/
theorem Apart.tidy (apart : Apart other text) : Apart other (tidy text) := by
  obtain ⟨b, same⟩ := settled_isPrefix_tidy text
  have longer := settled_append (settled text) b
  rw [settled_settled, same] at longer
  exact departs_of_isPrefix longer apart

theorem Apart.departs (apart : Apart other text) : departs text other = true :=
  departs_of_isPrefix (settled_isPrefix text) apart

end Colloquy.Text
