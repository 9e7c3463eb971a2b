import Colloquy.Proofs.Fragment
import Colloquy.Proofs.Text.Whole

/-! What breaking leaves of a text: no dashes between blanks, no blank next to a break, and no word that
breaks. Between two breaks the text is as it was. -/

namespace Colloquy.Fragment

open Text

variable {text t t' u : List Char} {c d : Char} {rs : List (Run Kind)} {r : Run Kind}

section

variable {isMark : Char → Bool}

theorem kindBy_eq_mark : kindBy isMark c = .mark ↔ isMark c = true := by
  rw [kindBy]
  split
  · simp_all
  · split <;> simp_all

theorem isBlank_of_kindBy (blank : kindBy isMark c = .blank) : isBlank c = true := by
  rw [kindBy] at blank
  split at blank
  · contradiction
  · split at blank
    · next so => exact so
    · contradiction

theorem not_isBlank_of_kindBy (solid : ∀ c, isMark c = true → isBlank c = false)
    (other : kindBy isMark c ≠ .blank) : isBlank c = false := by
  rw [kindBy] at other
  split at other
  · next marked => exact solid c marked
  · split at other
    · contradiction
    · next blank => exact Bool.not_eq_true _ ▸ blank

end

/-! Dashes. -/

/-- Whether a text begins with dashes and a blank after them. -/
def OpensDashed (text : List Char) : Prop :=
  ∃ n y, isBlank y = true ∧ List.replicate (n + 1) '-' ++ [y] <+: text

/-- Whether there are dashes with a blank on both sides somewhere in a text. -/
def Dashed (text : List Char) : Prop :=
  ∃ x n y, isBlank x = true ∧ isBlank y = true ∧ x :: (List.replicate (n + 1) '-' ++ [y]) <:+: text

/-- Dashes between blanks begin with the first character, which is blank then, or stand further on. -/
theorem dashed_cons : Dashed (c :: text) ↔ isBlank c = true ∧ OpensDashed text ∨ Dashed text := by
  constructor
  · rintro ⟨x, n, y, before, after, inside⟩
    rcases List.infix_cons_iff.mp inside with first | later
    · obtain ⟨rfl, ahead⟩ := List.cons_prefix_cons.mp first
      exact .inl ⟨before, n, y, after, ahead⟩
    · exact .inr ⟨x, n, y, before, after, later⟩
  · rintro (⟨before, n, y, after, ahead⟩ | ⟨x, n, y, before, after, inside⟩)
    · exact ⟨c, n, y, before, after, ((List.prefix_cons_inj c).mpr ahead).isInfix⟩
    · exact ⟨x, n, y, before, after, inside.trans (List.suffix_cons c text).isInfix⟩

theorem not_opensDashed_cons (other : c ≠ '-') : ¬OpensDashed (c :: text) := by
  rintro ⟨n, y, _, ahead⟩
  rw [List.replicate_succ, List.cons_append, List.cons_prefix_cons] at ahead
  exact other ahead.1.symm

/-- Dashes with another solid character after them, or nothing, are not dashes before a blank. Dash by
dash, until the blank would have to be the character after the dashes. -/
theorem not_opensDashed_append {dashes : List Char} (all : ∀ c ∈ dashes, c = '-')
    (next : ∀ c ∈ t.head?, c ≠ '-' ∧ isBlank c = false) : ¬OpensDashed (dashes ++ t) := by
  rintro ⟨n, y, blank, ahead⟩
  have shorter (m : Nat) (dashes : List Char) (all : ∀ c ∈ dashes, c = '-')
      (ahead : List.replicate m '-' ++ [y] <+: dashes ++ t) : False := by
    induction m generalizing dashes with
    | zero =>
      cases dashes with
      | nil =>
        cases t with
        | nil => simp at ahead
        | cons c t =>
          have solid := (next c rfl).2
          rw [← (List.cons_prefix_cons.mp ahead).1, blank] at solid
          cases solid
      | cons c dashes =>
        have same := (List.cons_prefix_cons.mp ahead).1
        rw [all c List.mem_cons_self] at same
        rw [same] at blank
        contradiction
    | succ m ih =>
      cases dashes with
      | nil =>
        cases t with
        | nil => simp at ahead
        | cons c t => exact (next c rfl).1 (List.cons_prefix_cons.mp ahead).1.symm
      | cons c dashes =>
        exact ih dashes (List.forall_mem_cons.mp all).2 (List.cons_prefix_cons.mp ahead).2
  exact shorter (n + 1) dashes all ahead

theorem dashed_append_solid {a : List Char} (solid : ∀ c ∈ a, isBlank c = false)
    (dashed : Dashed (a ++ t)) : Dashed t := by
  induction a with
  | nil => exact dashed
  | cons c a ih =>
    obtain ⟨first, solid⟩ := List.forall_mem_cons.mp solid
    rcases dashed_cons.mp dashed with ⟨blank, _⟩ | later
    · rw [first] at blank
      contradiction
    · exact ih solid later

theorem dashed_append_blank {a : List Char} (blank : ∀ c ∈ a, isBlank c = true)
    (dashed : Dashed (a ++ t)) : OpensDashed t ∨ Dashed t := by
  induction a with
  | nil => exact .inr dashed
  | cons c a ih =>
    obtain ⟨_, blank⟩ := List.forall_mem_cons.mp blank
    rcases dashed_cons.mp dashed with ⟨_, opens⟩ | later
    · cases a with
      | nil => exact .inl opens
      | cons d a =>
        refine absurd opens (not_opensDashed_cons ?_)
        rintro rfl
        have second := blank '-' List.mem_cons_self
        contradiction
    · exact ih blank later

/-- A run stays where no dashes with a blank after them follow it, if it is blank. -/
theorem breakDashes_cons (stays : r.kind = .blank → ∀ b c rest, rs = b :: c :: rest →
    ¬(b.kind = .mark ∧ c.kind = .blank)) : breakDashes (r :: rs) = r.chars ++ breakDashes rs := by
  match rs with
  | [] => simp [breakDashes, unruns]
  | [b] => simp [breakDashes, unruns]
  | b :: c :: rest =>
    rw [breakDashes]
    exact if_neg fun gap => stays gap.1 b c rest rfl gap.2

theorem dash_solid {c : Char} (dash : (c == '-') = true) : isBlank c = false := by
  rw [beq_iff_eq.mp dash]
  rfl

/-- After a blank run that stays no dashes with a blank after them are left. -/
theorem not_opensDashed_breakDashes (maximal : Maximal (kindBy (· == '-')) rs)
    (solid : ∀ s ∈ rs.head?, s.kind ≠ .blank)
    (stays : ∀ b c rest, rs = b :: c :: rest → ¬(b.kind = .mark ∧ c.kind = .blank)) :
    ¬OpensDashed (breakDashes rs) := by
  cases rs with
  | nil =>
    rintro ⟨n, y, _, ahead⟩
    simp [breakDashes, unruns] at ahead
  | cons b rs =>
    have other := solid b rfl
    rw [breakDashes_cons fun blank => absurd blank other]
    by_cases dashes : b.kind = .mark
    · have all : ∀ c ∈ b.chars, c = '-' := by
        intro c member
        have same := maximal.solid b List.mem_cons_self c member
        simpa using kindBy_eq_mark.mp (same.trans dashes)
      refine not_opensDashed_append all ?_
      cases rs with
      | nil => simp [breakDashes, unruns]
      | cons c rest =>
        have noDash : c.kind ≠ .mark := fun same => maximal.head_ne c rfl (dashes.trans same.symm)
        have noBlank : c.kind ≠ .blank := fun same => stays b c rest rfl ⟨dashes, same⟩
        obtain ⟨d, more, chars, kind⟩ := maximal.tail.exists_cons
        rw [breakDashes_cons fun blank => absurd blank noBlank, chars]
        rintro x ⟨⟩
        constructor
        · rintro rfl
          exact noDash (kind.symm.trans (kindBy_eq_mark.mpr rfl))
        · exact not_isBlank_of_kindBy (fun _ => dash_solid) (kind.trans_ne noBlank)
    · obtain ⟨d, more, chars, kind⟩ := maximal.exists_cons
      rw [chars]
      refine not_opensDashed_cons ?_
      rintro rfl
      exact dashes (kind.symm.trans (kindBy_eq_mark.mpr rfl))

/-- No dashes between blanks are left once text is broken at them. By induction on the number of runs, as
three of them go where there is a break. -/
theorem not_dashed_breakDashes (maximal : Maximal (kindBy (· == '-')) rs) :
    ¬Dashed (breakDashes rs) := by
  induction count : rs.length using Nat.strong_induction_on generalizing rs with
  | _ n ih =>
    cases rs with
    | nil =>
      rintro ⟨x, n, y, _, _, inside⟩
      simp [breakDashes, unruns] at inside
    | cons r rs =>
      by_cases gap : r.kind = .blank ∧
          ∃ b c rest, rs = b :: c :: rest ∧ b.kind = .mark ∧ c.kind = .blank
      · obtain ⟨blank, b, c, rest, rfl, mark, blank'⟩ := gap
        rw [breakDashes, if_pos ⟨blank, mark, blank'⟩, dashed_cons]
        have later := ih rest.length (by simp [← count]; omega) maximal.tail.tail.tail rfl
        simp [later, breakMark, isBlank]
      · have stays : r.kind = .blank → ∀ b c rest, rs = b :: c :: rest →
            ¬(b.kind = .mark ∧ c.kind = .blank) :=
          fun blank b c rest same marks => gap ⟨blank, b, c, rest, same, marks⟩
        have later := ih rs.length (by simp [← count]) maximal.tail rfl
        rw [breakDashes_cons stays]
        intro dashed
        have kinds := maximal.solid r List.mem_cons_self
        by_cases blank : r.kind = .blank
        · have blanks : ∀ c ∈ r.chars, isBlank c = true := fun c member =>
            isBlank_of_kindBy ((kinds c member).trans blank)
          rcases dashed_append_blank blanks dashed with opens | inside
          · refine not_opensDashed_breakDashes maximal.tail ?_ (stays blank) opens
            exact fun s next same => maximal.head_ne s next (blank.trans same.symm)
          · exact later inside
        · refine later (dashed_append_solid (fun c member => ?_) dashed)
          exact not_isBlank_of_kindBy (fun _ => dash_solid) ((kinds c member).trans_ne blank)

theorem Dashed.of_isInfix (dashed : Dashed u) (inside : u <:+: text) : Dashed text := by
  obtain ⟨x, n, y, before, after, found⟩ := dashed
  exact ⟨x, n, y, before, after, found.trans inside⟩

/-- Where there are no dashes between blanks, nothing is broken. A break would need the last blank of a
run, the dashes, and the first blank of the third run. -/
theorem breakDashes_of_not_dashed (maximal : Maximal (kindBy (· == '-')) rs)
    (none_ : ¬Dashed (unruns rs)) : breakDashes rs = unruns rs := by
  induction rs with
  | nil => rfl
  | cons r rs ih =>
    have later : ¬Dashed (unruns rs) := fun dashed =>
      none_ (dashed.of_isInfix (List.suffix_append r.chars _).isInfix)
    rw [breakDashes_cons ?_, ih maximal.tail later, unruns_cons]
    rintro blank b c rest rfl ⟨mark, blank'⟩
    obtain ⟨front, x, chars⟩ := List.eq_nil_or_concat r.chars |>.resolve_left
      (maximal.nonempty r List.mem_cons_self)
    have before : isBlank x = true := isBlank_of_kindBy
      ((maximal.solid r List.mem_cons_self x (by simp [chars])).trans blank)
    obtain ⟨y, more, chars', kind⟩ := maximal.tail.tail.exists_cons
    have dashes : b.chars = List.replicate (b.chars.length - 1 + 1) '-' := by
      have some_ := List.length_pos_iff.mpr (maximal.tail.nonempty b List.mem_cons_self)
      rw [Nat.sub_add_cancel some_, List.eq_replicate_iff]
      refine ⟨rfl, fun d member => ?_⟩
      have same := (maximal.tail.solid b List.mem_cons_self d member).trans mark
      simpa using kindBy_eq_mark.mp same
    refine none_ ⟨x, b.chars.length - 1, y, before, isBlank_of_kindBy (kind.trans blank'), ?_⟩
    rw [← dashes]
    exact ⟨front, more ++ unruns rest, by simp [unruns, chars, chars']⟩

/-! Runs that break. -/

variable {breaks : Run Kind → Bool} {broken : Bool}

/-- What is left after breaking is a break, or stands in a run that does not break. -/
theorem mem_breakRuns (member : c ∈ breakRuns breaks broken rs) :
    c = breakMark ∨ ∃ r ∈ rs, breaks r = false ∧ c ∈ r.chars := by
  induction rs generalizing broken with
  | nil => contradiction
  | cons r rs ih =>
    have later {broken : Bool} (member : c ∈ breakRuns breaks broken rs) :
        c = breakMark ∨ ∃ s ∈ r :: rs, breaks s = false ∧ c ∈ s.chars := by
      rcases ih member with mark | ⟨s, inside, unbroken, own⟩
      · exact .inl mark
      · exact .inr ⟨s, List.mem_cons_of_mem r inside, unbroken, own⟩
    rw [breakRuns] at member
    split at member
    · rcases List.mem_cons.mp member with mark | member
      · exact .inl mark
      · exact later member
    · next unbroken =>
      split at member
      · exact later member
      · rcases List.mem_append.mp member with own | member
        · exact .inr ⟨r, List.mem_cons_self, Bool.not_eq_true _ ▸ unbroken, own⟩
        · exact later member

/-- Whether what stands in a text without a break stands in another text too, and at its start if it
stands at the start. -/
structure Lifts (t t' : List Char) : Prop where
  ahead : ∀ u, breakMark ∉ u → u <+: t → u <+: t'
  inside : ∀ u, breakMark ∉ u → u <:+: t → u <:+: t'

theorem Lifts.append (lifts : Lifts t t') (a : List Char) : Lifts (a ++ t) (a ++ t') := by
  induction a with
  | nil => exact lifts
  | cons c a ih =>
    have ahead : ∀ u, breakMark ∉ u → u <+: c :: (a ++ t) → u <+: c :: (a ++ t') := by
      intro u unbroken begins
      cases u with
      | nil => exact List.nil_prefix
      | cons d u =>
        obtain ⟨rfl, later⟩ := List.cons_prefix_cons.mp begins
        exact (List.prefix_cons_inj d).mpr (ih.ahead u (by simp_all) later)
    refine ⟨ahead, fun u unbroken found => ?_⟩
    rcases List.infix_cons_iff.mp found with begins | later
    · exact (ahead u unbroken begins).isInfix
    · exact (ih.inside u unbroken later).trans (List.suffix_cons c _).isInfix

/-- Nothing goes on over a break. -/
theorem Lifts.mark (inside : ∀ u, breakMark ∉ u → u <:+: t → u <:+: t') :
    Lifts (breakMark :: t) t' := by
  have ahead : ∀ u, breakMark ∉ u → u <+: breakMark :: t → u = [] := by
    intro u unbroken begins
    cases u with
    | nil => rfl
    | cons d u =>
      obtain ⟨rfl, _⟩ := List.cons_prefix_cons.mp begins
      simp at unbroken
  refine ⟨fun u unbroken begins => ?_, fun u unbroken found => ?_⟩
  · rw [ahead u unbroken begins]
    exact List.nil_prefix
  · rcases List.infix_cons_iff.mp found with begins | later
    · rw [ahead u unbroken begins]
      exact List.nil_infix
    · exact inside u unbroken later

theorem Lifts.inside_append (lifts : ∀ u, breakMark ∉ u → u <:+: t → u <:+: t') (a : List Char) :
    ∀ u, breakMark ∉ u → u <:+: t → u <:+: a ++ t' := fun u unbroken found =>
  (lifts u unbroken found).trans (List.suffix_append a t').isInfix

/-- What stands between two breaks stood in the text before. The blank before a break goes with that
break. -/
theorem lifts_breakRuns (breaks : Run Kind → Bool) (rs : List (Run Kind)) :
    Lifts (breakRuns breaks false rs) (unruns rs) ∧
      ∀ u, breakMark ∉ u → u <:+: breakRuns breaks true rs → u <:+: unruns rs := by
  induction rs with
  | nil => exact ⟨⟨fun _ _ => id, fun _ _ => id⟩, fun _ _ => id⟩
  | cons r rs ih =>
    obtain ⟨lifts, afterBreak⟩ := ih
    rw [breakRuns, breakRuns, unruns_cons]
    split
    · have broken := Lifts.mark (Lifts.inside_append afterBreak r.chars)
      exact ⟨broken, broken.inside⟩
    · have dropped := Lifts.inside_append lifts.inside r.chars
      refine ⟨?_, ?_⟩
      · split
        · next drops =>
          obtain ⟨s, more, rfl, next⟩ : ∃ s more, rs = s :: more ∧ breaks s = true := by
            cases rs with
            | nil => simp at drops
            | cons s more => exact ⟨s, more, rfl, by simpa using (Bool.and_eq_true _ _ ▸ drops : _ ∧ _).2⟩
          rw [breakRuns, if_pos next] at dropped ⊢
          exact Lifts.mark fun u unbroken found =>
            dropped u unbroken (found.trans (List.suffix_cons _ _).isInfix)
        · exact lifts.append r.chars
      · split
        · exact dropped
        · exact (lifts.append r.chars).inside

/-- Whether two neighbours are no break and a blank. -/
def Tight (c d : Char) : Prop :=
  (c = breakMark → isBlank d = false) ∧ (d = breakMark → isBlank c = false)

theorem tight_of_ne (first : c ≠ breakMark) (second : d ≠ breakMark) : Tight c d :=
  ⟨fun same => absurd same first, fun same => absurd same second⟩

/-- Neighbours in and between runs that do not break. -/
structure Held (R : Char → Char → Prop) (breaks : Run Kind → Bool) (rs : List (Run Kind)) : Prop where
  within : ∀ r ∈ rs, breaks r = false → r.chars.IsChain R
  between : rs.IsChain fun r s => breaks r = false → breaks s = false →
    ∀ x ∈ r.chars.getLast?, ∀ y ∈ s.chars.head?, R x y

theorem Held.tail {R : Char → Char → Prop} (held : Held R breaks (r :: rs)) : Held R breaks rs :=
  ⟨fun s member => held.within s (List.mem_cons_of_mem r member), held.between.tail⟩

/-- What is left begins with a break, or with a run that stays. -/
theorem head?_breakRuns (breaks : Run Kind → Bool) (rs : List (Run Kind)) (nonempty : r.chars ≠ []) :
    (breaks r = true ∨ r.kind = .blank) ∧ (breakRuns breaks false (r :: rs)).head? = some breakMark ∨
      breaks r = false ∧ (breakRuns breaks false (r :: rs)).head? = r.chars.head? := by
  rw [breakRuns]
  split
  · next broken => exact .inl ⟨.inl broken, rfl⟩
  · next unbroken =>
    split
    · next drops =>
      simp only [Bool.and_eq_true, decide_eq_true_eq, Bool.false_or] at drops
      cases rs with
      | nil => simp at drops
      | cons s more =>
        have next : breaks s = true := by simpa using drops.2
        exact .inl ⟨.inr drops.1, by rw [breakRuns, if_pos next]; rfl⟩
    · exact .inr ⟨Bool.not_eq_true _ ▸ unbroken, List.head?_append_of_ne_nil _ nonempty⟩

section

variable {isMark : Char → Bool} (solid : ∀ c, isMark c = true → isBlank c = false)

include solid

/-- No blank is left next to a break, if none was next to one that stays. A blank run is dropped; the run
after it begins with a solid character, or breaks. -/
theorem isChain_breakRuns (maximal : Maximal (kindBy isMark) rs) (held : Held Tight breaks rs)
    (broken : Bool) : (breakRuns breaks broken rs).IsChain Tight ∧
      (broken = true → ∀ c ∈ (breakRuns breaks broken rs).head?, isBlank c = false) := by
  induction rs generalizing broken with
  | nil => exact ⟨.nil, by simp [breakRuns]⟩
  | cons r rs ih =>
    have later := ih maximal.tail held.tail
    have nonblank : r.kind ≠ .blank → ∀ c ∈ r.chars, isBlank c = false := fun other c member =>
      not_isBlank_of_kindBy solid ((maximal.solid r List.mem_cons_self c member).trans_ne other)
    rw [breakRuns]
    split
    · obtain ⟨chain, begins⟩ := later true
      refine ⟨List.isChain_cons.mpr ⟨fun d next => ⟨fun _ => begins rfl d next, fun _ => rfl⟩, chain⟩, ?_⟩
      rintro _ c ⟨⟩
      rfl
    · next unbroken =>
      obtain ⟨chain, -⟩ := later false
      split
      · next drops =>
        have blank := of_decide_eq_true (Bool.and_eq_true _ _ ▸ drops : _ ∧ _).1
        refine ⟨chain, fun _ c first => ?_⟩
        cases rs with
        | nil => simp [breakRuns] at first
        | cons s more =>
          have nonempty := maximal.tail.nonempty s List.mem_cons_self
          rcases head?_breakRuns breaks more nonempty with ⟨_, mark⟩ | ⟨_, own⟩
          · rw [mark] at first
            cases first
            rfl
          · rw [own] at first
            have inside := maximal.tail.solid s List.mem_cons_self c (List.mem_of_mem_head? first)
            refine not_isBlank_of_kindBy solid fun same => ?_
            exact maximal.head_ne s rfl (blank.trans (same.symm.trans inside))
      · next stays =>
        have nonempty := maximal.nonempty r List.mem_cons_self
        constructor
        · refine List.isChain_append.mpr ⟨held.within r List.mem_cons_self (Bool.not_eq_true _ ▸ unbroken),
            chain, fun x last y first => ?_⟩
          have inside := List.mem_of_mem_getLast? last
          cases rs with
          | nil => simp [breakRuns] at first
          | cons s more =>
            have nonempty' := maximal.tail.nonempty s List.mem_cons_self
            rcases head?_breakRuns breaks more nonempty' with ⟨why, mark⟩ | ⟨unbroken', own⟩
            · have other : r.kind ≠ .blank := by
                rintro blank
                rcases why with broken | blank'
                · simp [blank, broken] at stays
                · exact maximal.head_ne s rfl (blank.trans blank'.symm)
              rw [mark] at first
              cases first
              exact ⟨fun _ => rfl, fun _ => nonblank other x inside⟩
            · rw [own] at first
              exact (List.isChain_cons.mp held.between).1 s rfl (Bool.not_eq_true _ ▸ unbroken) unbroken'
                x last y first
        · rintro rfl c first
          rw [List.head?_append_of_ne_nil _ nonempty] at first
          refine nonblank (fun blank => ?_) c (List.mem_of_mem_head? first)
          simp [blank] at stays

end

/-- Where the marks that break stand alone, with no blank next to them, nothing changes. -/
theorem breakRuns_of_tight {isMark : Char → Bool} (maximal : Maximal (kindBy isMark) rs)
    (alone : ∀ r ∈ rs, breaks r = true → r.chars = [breakMark])
    (tight : (unruns rs).IsChain Tight) (broken : Bool)
    (begins : broken = true → ∀ c ∈ (unruns rs).head?, isBlank c = false) :
    breakRuns breaks broken rs = unruns rs := by
  induction rs generalizing broken with
  | nil => rfl
  | cons r rs ih =>
    obtain ⟨first, alone⟩ := List.forall_mem_cons.mp alone
    rw [unruns_cons] at tight begins ⊢
    have later := ih maximal.tail alone (List.isChain_append.mp tight).2.1
    rw [breakRuns]
    split
    · next broken =>
      rw [first broken] at tight ⊢
      have next := (List.isChain_cons.mp tight).1
      rw [later true fun _ c found => (next c found).1 rfl]
      rfl
    · next unbroken =>
      rw [if_neg, later false (by simp)]
      intro drops
      simp only [Bool.and_eq_true, decide_eq_true_eq, Bool.or_eq_true] at drops
      obtain ⟨blank, why⟩ := drops
      have blanks : ∀ c ∈ r.chars, isBlank c = true := fun c member =>
        isBlank_of_kindBy ((maximal.solid r List.mem_cons_self c member).trans blank)
      have nonempty := maximal.nonempty r List.mem_cons_self
      rcases why with rfl | next
      · have solid := begins rfl (r.chars.head nonempty)
          (by rw [List.head?_append_of_ne_nil _ nonempty, List.head?_eq_some_head nonempty]; rfl)
        rw [blanks _ (List.head_mem nonempty)] at solid
        contradiction
      · cases rs with
        | nil => simp at next
        | cons s more =>
          have mark := alone s List.mem_cons_self (by simpa using next)
          have solid := (List.isChain_append.mp tight).2.2 (r.chars.getLast nonempty)
            (by rw [List.getLast?_eq_some_getLast nonempty]; rfl) breakMark (by simp [unruns, mark])
          have other := solid.2 rfl
          rw [blanks _ (List.getLast_mem nonempty)] at other
          contradiction

/-! The conjunction. -/

def joins (r : Run Kind) : Bool := r.kind = .mark && r.chars == conjunction

theorem joins_iff : joins r = true ↔ r.kind = .mark ∧ r.chars = conjunction := by
  simp [joins]

theorem conjunction_words : ∀ c ∈ conjunction, isWord c = true := List.all_eq_true.mp (by decide)

theorem conjunction_ne_nil : conjunction ≠ [] := by decide

theorem isWord_eq_false (other : kindBy isWord c ≠ .mark) : isWord c = false := by
  rwa [ne_eq, kindBy_eq_mark, Bool.not_eq_true] at other

/-- Next to a run of word characters there is no word character. -/
theorem not_isWord_head? (maximal : Maximal (kindBy isWord) (r :: rs)) (word : r.kind = .mark) :
    (unruns rs).head?.any isWord = false := by
  cases rs with
  | nil => rfl
  | cons s more =>
    obtain ⟨c, others, chars, kind⟩ := maximal.tail.exists_cons
    rw [unruns_cons, chars]
    refine isWord_eq_false fun same => ?_
    exact maximal.head_ne s rfl (word.trans (same.symm.trans kind))

/-- A run of word characters stands whole in the text, as no such character is next to it. -/
theorem standsWhole_of_mem (maximal : Maximal (kindBy isWord) rs) (member : r ∈ rs)
    (word : r.kind = .mark) : StandsWhole r.chars (unruns rs) := by
  have itself : StandsWhole r.chars r.chars := ⟨[], [], by simp, rfl, rfl⟩
  refine itself.of_mem ?_ ?_ (maximal.nonempty r member) maximal member
  · intro c d other
    by_cases marked : kindBy isWord c = .mark
    · exact .inr (isWord_eq_false fun same => other (marked.trans same.symm))
    · exact .inl (isWord_eq_false marked)
  · exact fun c own => kindBy_eq_mark.mp ((maximal.solid r member c own).trans word)

/-- The conjunction does not stand whole in what is left after breaking at it. -/
theorem not_standsWhole_breakRuns (maximal : Maximal (kindBy isWord) rs) (broken : Bool) :
    ¬StandsWhole conjunction (breakRuns joins broken rs) := by
  induction rs generalizing broken with
  | nil =>
    rintro ⟨a, b, same, _⟩
    simp [breakRuns, conjunction] at same
  | cons r rs ih =>
    have later := ih maximal.tail
    have kinds := maximal.solid r List.mem_cons_self
    rw [breakRuns]
    split
    · rw [standsWhole_cons conjunction_words conjunction_ne_nil (by decide)]
      exact later true
    · next unbroken =>
      split
      · exact later false
      · by_cases word : r.kind = .mark
        · have apart : (breakRuns joins false rs).head?.any isWord = false := by
            cases rs with
            | nil => rfl
            | cons s more =>
              rcases head?_breakRuns joins more
                (maximal.tail.nonempty s List.mem_cons_self) with ⟨_, mark⟩ | ⟨_, own⟩
              · rw [mark]
                rfl
              · have next := not_isWord_head? maximal word
                rw [unruns_cons, List.head?_append_of_ne_nil _
                  (maximal.tail.nonempty s List.mem_cons_self)] at next
                rw [own, next]
          rw [standsWhole_append conjunction_words conjunction_ne_nil (.inr apart)]
          rintro (own | inside)
          · have words : ∀ c ∈ r.chars, isWord c = true := fun c member =>
              kindBy_eq_mark.mp ((kinds c member).trans word)
            exact unbroken (joins_iff.mpr ⟨word, (eq_of_standsWhole own words).symm⟩)
          · exact later false inside
        · rw [standsWhole_append_solid conjunction_words conjunction_ne_nil]
          · exact later false
          · exact fun c member => isWord_eq_false ((kinds c member).trans_ne word)

end Colloquy.Fragment
