import Colloquy.Proofs.Fragment.Breaks
import Colloquy.Proofs.Text.Case

/-! Broken texts. What comes out of the passes has nothing left that one of them would change, except
that breaks may follow each other. -/

namespace Colloquy.Fragment

open Text

variable {text t : List Char} {c : Char}

/-- What a text is after breaking. -/
structure Broken (text : List Char) : Prop where
  small : ∀ c ∈ text, lowerOne c = c
  symbols : ∀ c ∈ text, symbols.contains c = false
  stops : ∀ c ∈ text, isStop c = true → c = breakMark
  dashes : ¬Dashed text
  words : ¬StandsWhole conjunction text
  tight : text.IsChain Tight
  narrow : text.IsChain Narrow

def Single (text : List Char) : Prop := text.IsChain fun c d => c = breakMark → d ≠ breakMark

/-! Dashes. -/

def breakAtDashes (text : List Char) : List Char := breakDashes (runs (kindBy (· == '-')) text)

theorem mem_breakDashes {rs : List (Run Kind)} (member : c ∈ breakDashes rs) :
    c = breakMark ∨ c ∈ unruns rs := by
  fun_induction breakDashes rs with
  | case1 a b d rest _ ih =>
    rcases List.mem_cons.mp member with mark | later
    · exact .inl mark
    · exact (ih later).imp_right fun inside => by simp_all [unruns]
  | case2 a b d rest _ ih =>
    rcases List.mem_append.mp member with own | later
    · exact .inr (List.mem_append_left _ own)
    · exact (ih later).imp_right fun inside => List.mem_append_right _ inside
  | case3 => exact .inr member

theorem mem_breakAtDashes (member : c ∈ breakAtDashes text) : c = breakMark ∨ c ∈ text := by
  simpa only [unruns_runs] using mem_breakDashes member

theorem not_dashed_breakAtDashes (text : List Char) : ¬Dashed (breakAtDashes text) :=
  not_dashed_breakDashes (maximal_runs _ text)

/-- Text that is broken already is not broken at dashes again. -/
theorem breakAtDashes_of_broken (broken : Broken t) : breakAtDashes t = t := by
  rw [breakAtDashes, breakDashes_of_not_dashed (maximal_runs _ t), unruns_runs]
  rw [unruns_runs]
  exact broken.dashes

/-! Runs that break, whatever they are. -/

theorem mem_breakRuns_runs {isMark : Char → Bool} {breaks : Run Kind → Bool}
    (member : c ∈ breakRuns breaks false (runs (kindBy isMark) text)) : c = breakMark ∨ c ∈ text := by
  refine (mem_breakRuns member).imp_right fun ⟨r, inside, _, own⟩ => ?_
  exact (chars_isInfix_of_mem_runs inside).subset own

theorem breakMark_not_mem {x y : Char} (n : Nat) (before : isBlank x = true) (after : isBlank y = true) :
    breakMark ∉ x :: (List.replicate (n + 1) '-' ++ [y]) := by
  have solid (z : Char) (blank : isBlank z = true) : breakMark ≠ z := by
    rintro rfl
    contradiction
  simp only [List.mem_cons, List.mem_append, List.mem_replicate, List.not_mem_nil, or_false, not_or]
  exact ⟨solid x before, by simp [breakMark], solid y after⟩

theorem Dashed.of_breakRuns {isMark : Char → Bool} {breaks : Run Kind → Bool}
    (dashed : Dashed (breakRuns breaks false (runs (kindBy isMark) text))) : Dashed text := by
  obtain ⟨x, n, y, before, after, found⟩ := dashed
  refine ⟨x, n, y, before, after, ?_⟩
  have lifted := (lifts_breakRuns breaks (runs (kindBy isMark) text)).1.inside
  rw [unruns_runs] at lifted
  exact lifted _ (breakMark_not_mem n before after) found

/-- Where no break is next to a blank, none is next to one in or between runs. -/
theorem Held.of_isChain {breaks : Run Kind → Bool} {rs : List (Run Kind)}
    (nonempty : ∀ r ∈ rs, r.chars ≠ []) (tight : (unruns rs).IsChain Tight) : Held Tight breaks rs := by
  have none_ : [] ∉ rs.map Run.chars := by
    rw [List.mem_map]
    rintro ⟨r, member, empty⟩
    exact nonempty r member empty
  rw [unruns, List.flatMap_def, List.isChain_flatten none_, List.isChain_map, List.forall_mem_map] at tight
  exact ⟨fun r member _ => tight.1 r member, tight.2.imp fun _ _ across _ _ => across⟩

/-- Runs that stay hold no break mark, so that none is next to a blank in them. -/
theorem Held.of_ne {breaks : Run Kind → Bool} {rs : List (Run Kind)}
    (other : ∀ r ∈ rs, breaks r = false → ∀ c ∈ r.chars, c ≠ breakMark) : Held Tight breaks rs := by
  induction rs with
  | nil => exact ⟨by simp, .nil⟩
  | cons r rs ih =>
    obtain ⟨first, others⟩ := List.forall_mem_cons.mp other
    have held := ih others
    refine ⟨List.forall_mem_cons.mpr ⟨fun stays => ?_, held.within⟩, ?_⟩
    · refine (List.pairwise_of_forall_mem_list fun c left d right => ?_).isChain
      exact tight_of_ne (first stays c left) (first stays d right)
    · refine List.isChain_cons.mpr ⟨fun s next stays stays' x last y begins => ?_, held.between⟩
      exact tight_of_ne (first stays x (List.mem_of_mem_getLast? last))
        (others s (List.mem_of_mem_head? next) stays' y (List.mem_of_mem_head? begins))

/-! Punctuation. -/

def breakAtStops (text : List Char) : List Char :=
  breakRuns (·.kind = .mark) false (runs (kindBy isStop) text)

theorem isBlank_of_isStop (stop : isStop c = true) : isBlank c = false := by
  simp only [isStop, Bool.or_eq_true, beq_iff_eq] at stop
  rcases stop with (((rfl | rfl) | rfl) | rfl) | rfl <;> rfl

theorem stop_of_mem_breakAtStops (member : c ∈ breakAtStops text) (stop : isStop c = true) :
    c = breakMark := by
  refine (mem_breakRuns member).resolve_right ?_
  rintro ⟨r, inside, unbroken, own⟩
  have kind := (maximal_runs _ text).solid r inside c own
  rw [kindBy_eq_mark.mpr stop] at kind
  simp [← kind] at unbroken

theorem tight_breakAtStops (text : List Char) : (breakAtStops text).IsChain Tight := by
  have maximal := maximal_runs (kindBy isStop) text
  refine (isChain_breakRuns (fun _ => isBlank_of_isStop) maximal (.of_ne ?_) false).1
  rintro r member stays c own rfl
  have kind := maximal.solid r member breakMark own
  have stop : kindBy isStop breakMark = .mark := kindBy_eq_mark.mpr rfl
  simp [← kind, stop] at stays

/-- Text that is broken already is not broken at punctuation again. -/
theorem breakAtStops_of_broken (broken : Broken t) (single : Single t) : breakAtStops t = t := by
  have maximal := maximal_runs (kindBy isStop) t
  have alone : ∀ r ∈ runs (kindBy isStop) t, decide (r.kind = .mark) = true → r.chars = [breakMark] := by
    intro r member mark
    have mark := of_decide_eq_true mark
    have inside := chars_isInfix_of_mem_runs member
    have marks : ∀ c ∈ r.chars, c = breakMark := by
      intro c own
      have kind := (maximal.solid r member c own).trans mark
      exact broken.stops c (inside.subset own) (kindBy_eq_mark.mp kind)
    have nonempty := maximal.nonempty r member
    have chain := single.infix inside
    match chars : r.chars with
    | [] => contradiction
    | [c] => rw [marks c (by simp [chars])]
    | c :: d :: more =>
      rw [chars] at chain marks
      have apart := (List.isChain_cons_cons.mp chain).1 (marks c (by simp))
      exact absurd (marks d (by simp)) apart
  have tight : (unruns (runs (kindBy isStop) t)).IsChain Tight := by
    rw [unruns_runs]
    exact broken.tight
  rw [breakAtStops, breakRuns_of_tight maximal alone tight false (by simp), unruns_runs]

/-! The conjunction. -/

def breakAtWords (text : List Char) : List Char := breakRuns joins false (runs (kindBy isWord) text)

theorem not_standsWhole_breakAtWords (text : List Char) : ¬StandsWhole conjunction (breakAtWords text) :=
  not_standsWhole_breakRuns (maximal_runs _ text) false

theorem tight_breakAtWords (tight : text.IsChain Tight) : (breakAtWords text).IsChain Tight := by
  have maximal := maximal_runs (kindBy isWord) text
  refine (isChain_breakRuns (fun _ => isBlank_of_isWord) maximal (.of_isChain maximal.nonempty ?_) false).1
  rwa [unruns_runs]

/-- Text that is broken already is not broken at the conjunction again. -/
theorem breakAtWords_of_broken (broken : Broken t) : breakAtWords t = t := by
  rw [breakAtWords, breakRuns_of_no_break, unruns_runs]
  intro r member
  rw [← Bool.not_eq_true, joins_iff]
  rintro ⟨word, same⟩
  have whole := standsWhole_of_mem (maximal_runs _ t) member word
  rw [same, unruns_runs] at whole
  exact broken.words whole

/-! Gaps. -/

/-- Dashes between blanks stood between blanks before the blanks were collapsed. -/
theorem Dashed.of_collapse (dashed : Dashed (collapse text)) : Dashed text := by
  obtain ⟨x, n, y, before, after, p, q, same⟩ := dashed
  have solid : ∀ c ∈ List.replicate (n + 1) '-', isBlank c = false := by
    intro c member
    rw [List.eq_of_mem_replicate member]
    rfl
  have collapsed : collapse text = p ++ [x] ++ List.replicate (n + 1) '-' ++ y :: q := by
    rw [← same]
    simp
  obtain ⟨a, b, same, left, right⟩ := infix_of_collapse solid collapsed
  rw [List.getLast?_concat] at left
  obtain ⟨x', last, same_x⟩ := Option.map_eq_some_iff.mp left
  obtain ⟨y', first, same_y⟩ := Option.map_eq_some_iff.mp right
  obtain ⟨front, rfl⟩ := List.getLast?_eq_some_iff.mp last
  obtain ⟨more, rfl⟩ := List.head?_eq_some_iff.mp first
  refine ⟨x', n, y', ?_, ?_, front, more, by rw [same]; simp⟩
  · exact (isBlank_of_even same_x).trans before
  · exact (isBlank_of_even same_y).trans after

theorem Tight.even (c d c' d' : Char) (left : evenBlank c' = evenBlank c)
    (right : evenBlank d' = evenBlank d) (tight : Tight c d) : Tight c' d' := by
  have mark {x y : Char} (same : evenBlank x = evenBlank y) (own : x = breakMark) : y = breakMark := by
    subst own
    have solid : isBlank y = false := (isBlank_of_even same).symm
    rw [evenBlank, evenBlank, solid] at same
    exact same.symm
  constructor
  · intro own
    exact (isBlank_of_even right).trans (tight.1 (mark left own))
  · intro own
    exact (isBlank_of_even left).trans (tight.2 (mark right own))

/-! All passes. -/

theorem normalize_eq (text : List Char) : normalize text =
    collapse (breakAtWords (breakAtStops (breakAtDashes ((lower text).map blankSymbol)))) := rfl

theorem blankSymbol_spec (c : Char) :
    symbols.contains (blankSymbol c) = false ∧ (blankSymbol c = ' ' ∨ blankSymbol c = c) := by
  rw [blankSymbol]
  split
  · exact ⟨by decide, .inl rfl⟩
  · next other => exact ⟨Bool.not_eq_true _ ▸ other, .inr rfl⟩

/-- A normalized text has blanks, breaks and the small letters of the text, without symbols. -/
theorem mem_normalize (member : c ∈ normalize text) :
    c = ' ' ∨ c = breakMark ∨ c ∈ (lower text).map blankSymbol := by
  rw [normalize_eq] at member
  refine (mem_collapse member).imp_right fun member => ?_
  rcases mem_breakRuns_runs member with mark | member
  · exact .inl mark
  · rcases mem_breakRuns_runs member with mark | member
    · exact .inl mark
    · exact mem_breakAtDashes member

/-- A normalized text is broken, at dashes, punctuation and the conjunction. -/
theorem broken_normalize (text : List Char) : Broken (normalize text) := by
  constructor
  · intro c member
    rcases mem_normalize member with rfl | rfl | member
    · decide
    · decide
    · obtain ⟨d, lowered, rfl⟩ := List.mem_map.mp member
      rcases (blankSymbol_spec d).2 with same | same
      · rw [same]
        decide
      · rw [same]
        exact small_of_mem_lower lowered
  · intro c member
    rcases mem_normalize member with rfl | rfl | member
    · decide
    · decide
    · obtain ⟨d, _, rfl⟩ := List.mem_map.mp member
      exact (blankSymbol_spec d).1
  · intro c member stop
    rw [normalize_eq] at member
    rcases mem_collapse member with rfl | member
    · contradiction
    · rcases mem_breakRuns_runs member with mark | member
      · exact mark
      · exact stop_of_mem_breakAtStops member stop
  · intro dashed
    exact not_dashed_breakAtDashes _ dashed.of_collapse.of_breakRuns.of_breakRuns
  · intro whole
    exact not_standsWhole_breakAtWords _ (whole.of_collapse conjunction_words)
  · have tight := tight_breakAtWords (tight_breakAtStops (breakAtDashes ((lower text).map blankSymbol)))
    exact isChain_collapse Tight.even (tight.imp fun _ _ held _ => held)
  · exact narrow_collapse _

/-- A broken text whose breaks stand alone stays as it is. -/
theorem normalize_of_broken (broken : Broken t) (single : Single t) : normalize t = t := by
  have blanked : t.map blankSymbol = t := by
    refine (List.map_congr_left fun c member => ?_).trans (List.map_id _)
    rw [blankSymbol, broken.symbols c member]
    rfl
  rw [normalize_eq, lower_of_small broken.small, blanked, breakAtDashes_of_broken broken,
    breakAtStops_of_broken broken single, breakAtWords_of_broken broken, collapse_of_narrow broken.narrow]

end Colloquy.Fragment
