import Colloquy.Pattern.Compile
import Colloquy.Proofs.Outcome
import Colloquy.Proofs.Text.Respaced

/-! Patterns that differ in nothing but the blanks that their gaps are made of are the same regular
expression: no step from one to the other looks at a gap closer than whether it is there. -/

namespace Colloquy.Pattern

open Text

variable {a b : List Char}

/-- References are resolved the same whatever the gaps are. -/
theorem expandReferences_respaced (synonyms : List Synonym) (same : Respaced a b) :
    Respaced (expandReferences synonyms a) (expandReferences synonyms b) :=
  same.flatMap_runs (resolveRun synonyms)

/-! Asterisks between other characters. -/

/-- Whether two marks are one character after gaps of which both are empty or neither is. -/
structure Mark.Alike (m n : Mark) : Prop where
  char : m.char = n.char
  gap : Respaced m.gap n.gap

theorem Mark.Alike.text {m n : Mark} (same : m.Alike n) : Respaced m.text n.text := by
  rw [Mark.text, Mark.text, same.char]
  exact same.gap.append (.refl _)

theorem Mark.Alike.textFrom {m n : Mark} (bare : Bool) (same : m.Alike n) :
    Respaced (m.textFrom bare) (n.textFrom bare) := by
  cases bare with
  | true =>
    simp only [Mark.textFrom, if_true, same.char]
    exact .refl _
  | false => exact same.text

/-- Blanks before a text go before its first mark, or before what follows its marks if it has none. -/
theorem marks_blanks {g : List Char} (blank : ∀ c ∈ g, isBlank c = true) (a : List Char) :
    marks (g ++ a) = match marks a with
      | ([], tail) => ([], g ++ tail)
      | (m :: more, tail) => (⟨g ++ m.gap, m.char⟩ :: more, tail) := by
  induction g with
  | nil => rw [List.nil_append]; rcases marks a with ⟨_ | _, _⟩ <;> rfl
  | cons c g ih =>
    obtain ⟨first, blank⟩ := List.forall_mem_cons.mp blank
    rw [List.cons_append, marks, if_pos first, ih blank]
    rcases marks a with ⟨_ | _, _⟩ <;> rfl

/-- Texts that differ in their gaps have alike marks. -/
theorem marks_respaced (same : Respaced a b) :
    List.Forall₂ Mark.Alike (marks a).1 (marks b).1 ∧ Respaced (marks a).2 (marks b).2 := by
  induction same with
  | nil => exact ⟨.nil, .nil⟩
  | @solid c a b solid _ ih =>
    rw [marks, marks, if_neg (by simp [solid]), if_neg (by simp [solid])]
    exact ⟨.cons ⟨rfl, .nil⟩ ih.1, ih.2⟩
  | @gap g g' a b nonempty nonempty' blank blank' rest ih =>
    rw [marks_blanks blank, marks_blanks blank']
    obtain ⟨alike, tails⟩ := ih
    generalize marks a = p, marks b = q at alike tails
    obtain ⟨ms, tail⟩ := p
    obtain ⟨ns, tail'⟩ := q
    cases alike with
    | nil => exact ⟨.nil, .gap nonempty nonempty' blank blank' tails⟩
    | cons first others =>
      exact ⟨.cons ⟨first.char, .gap nonempty nonempty' blank blank' first.gap⟩ others, tails⟩

theorem expandInner_respaced {ms ns : List Mark} (bare : Bool) (same : List.Forall₂ Mark.Alike ms ns) :
    Respaced (expandInner bare ms) (expandInner bare ns) := by
  induction bare, ms using expandInner.induct generalizing ns with
  | case1 bare =>
    cases same
    exact .nil
  | case2 bare m =>
    cases same with
    | cons first others =>
      cases others
      exact first.textFrom bare
  | case3 bare m star =>
    obtain _ | ⟨first, _ | ⟨second, _ | _⟩⟩ := same
    exact (first.textFrom bare).append second.text
  | case4 bare m star next rest found ih =>
    obtain _ | ⟨first, _ | ⟨second, _ | ⟨third, others⟩⟩⟩ := same
    have found' := second.char.symm.trans found
    rw [expandInner, if_pos found, expandInner, if_pos found', first.char, third.char]
    exact ((first.textFrom bare).append (.refl _)).append (ih (.cons third others))
  | case5 bare m second next rest other ih =>
    obtain _ | ⟨first, _ | ⟨second, _ | ⟨third, others⟩⟩⟩ := same
    have other' := second.char ▸ other
    rw [expandInner, if_neg other, expandInner, if_neg other']
    exact (first.textFrom bare).append (ih (.cons second (.cons third others)))

/-! Asterisks at the start and at the end. -/

/-- The first character after an asterisk that a text begins with and what follows it, blanks aside. -/
def afterStar? (text : List Char) : Option (Char × List Char) :=
  match text.dropWhile isBlank with
  | [] => none
  | c :: rest =>
    if c = '*' then
      match rest.dropWhile isBlank with
      | [] => none
      | d :: more => some (d, more)
    else none

theorem expandFirst_eq (text : List Char) : expandFirst text = (afterStar? text).elim text fun p =>
    capture ++ (if p.1 = ')' ∨ p.1 = '\\' then [] else edge) ++ p.1 :: p.2 := by
  rw [expandFirst, afterStar?]
  cases text.dropWhile isBlank with
  | nil => rfl
  | cons c rest =>
    by_cases star : c = '*'
    · subst star
      cases next : rest.dropWhile isBlank <;> simp [next]
    · simp [star]

theorem expandLast_eq (text : List Char) :
    expandLast text = (afterStar? text.reverse).elim text fun p =>
      (p.1 :: p.2).reverse ++ (if p.1 = '(' then [] else edge) ++ capture := by
  rw [expandLast, afterStar?]
  cases text.reverse.dropWhile isBlank with
  | nil => rfl
  | cons c rest =>
    by_cases star : c = '*'
    · subst star
      cases next : rest.dropWhile isBlank <;> simp [next]
    · simp [star]

theorem afterStar?_respaced (same : Respaced a b) :
    afterStar? a = none ∧ afterStar? b = none ∨ ∃ c more more',
      afterStar? a = some (c, more) ∧ afterStar? b = some (c, more') ∧
        Respaced (c :: more) (c :: more') := by
  rw [afterStar?, afterStar?]
  rcases same.dropWhile with ⟨empty, empty'⟩ | ⟨c, more, more', begins, begins', rest⟩
  · rw [empty, empty']
    exact .inl ⟨rfl, rfl⟩
  · rw [begins, begins']
    by_cases star : c = '*'
    · dsimp only
      rw [if_pos star, if_pos star]
      rcases rest.dropWhile with ⟨empty, empty'⟩ | ⟨d, last, last', next, next', rest⟩
      · rw [empty, empty']
        exact .inl ⟨rfl, rfl⟩
      · rw [next, next']
        exact .inr ⟨d, last, last', rfl, rfl, (Respaced.refl [d]).append rest⟩
    · exact .inl (by simp [star])

theorem expandFirst_respaced (same : Respaced a b) : Respaced (expandFirst a) (expandFirst b) := by
  rw [expandFirst_eq, expandFirst_eq]
  rcases afterStar?_respaced same with ⟨none, none'⟩ | ⟨c, more, more', found, found', rest⟩
  · rw [none, none']
    exact same
  · rw [found, found']
    exact (Respaced.refl _).append rest

theorem expandLast_respaced (same : Respaced a b) : Respaced (expandLast a) (expandLast b) := by
  rw [expandLast_eq, expandLast_eq]
  rcases afterStar?_respaced same.reverse with ⟨none, none'⟩ | ⟨c, more, more', found, found', rest⟩
  · rw [none, none']
    exact same
  · rw [found, found']
    exact (rest.reverse.append (.refl _)).append (.refl _)

/-- Asterisks are expanded the same whatever the gaps are. -/
theorem expand_respaced (same : Respaced a b) : Respaced (expand a) (expand b) := by
  obtain ⟨alike, tails⟩ := marks_respaced same
  have chars : (marks a).1.map Mark.char = (marks b).1.map Mark.char :=
    map_eq_of_forall₂ (alike.imp fun _ _ same => same.char)
  rw [expand, expand]
  dsimp only
  rw [chars]
  split
  · exact .refl _
  · exact expandLast_respaced
      (expandFirst_respaced ((expandInner_respaced false alike).append tails))

/-! Gaps. -/

/-- Texts that differ in their gaps are the same once those are widened. -/
theorem widenGaps_respaced (same : Respaced a b) : widenGaps a = widenGaps b := by
  have runs : (runs isBlank a).map (fun r => if r.kind then gap else r.chars) =
      (runs isBlank b).map fun r => if r.kind then gap else r.chars := by
    refine map_eq_of_forall₂ (same.runs.imp fun r s alike => ?_)
    rw [← alike.1]
    cases kind : r.kind with
    | true => rfl
    | false => exact alike.2 kind
  rw [widenGaps, widenGaps, List.flatMap_def, List.flatMap_def, runs]

theorem unmarked_of_ne {pattern : List Char} (plain : pattern.head? ≠ some '$') :
    unmarked pattern = pattern := by
  rw [unmarked]
  rintro rest rfl
  exact plain rfl

theorem compile_of_respaced (synonyms : List Synonym) (plain : a.head? ≠ some '$')
    (same : Respaced a b) :
    compile synonyms (String.ofList a) = compile synonyms (String.ofList b) := by
  have plain' : b.head? ≠ some '$' := mt (same.head? (by decide)).mpr plain
  have source := widenGaps_respaced (expand_respaced (expandReferences_respaced synonyms same))
  simp only [compile, String.toList_ofList, unmarked_of_ne plain, unmarked_of_ne plain', source,
    Compiled.mk.injEq, true_and]
  simp [plain, plain']

/-- A pattern without a mark stays the same expression with the same flag if one of its gaps is written
with other blanks, as long as there are any. -/
theorem compile_respaced (synonyms : List Synonym) (before after : List Char) {g g' : List Char}
    (plain : (before ++ g ++ after).head? ≠ some '$') (nonempty : g ≠ []) (nonempty' : g' ≠ [])
    (blank : ∀ c ∈ g, isBlank c = true) (blank' : ∀ c ∈ g', isBlank c = true) :
    compile synonyms (String.ofList (before ++ g ++ after)) =
      compile synonyms (String.ofList (before ++ g' ++ after)) := by
  have gap : Respaced g g' := .gaps blank blank' (iff_of_false nonempty nonempty')
  exact compile_of_respaced synonyms plain (((Respaced.refl before).append gap).append (.refl after))

def believing : List Synonym := [⟨"belief", ["feel", "think so"]⟩]

/-- A tabulator and a space before an asterisk, or a line end. -/
theorem believing_respaced :
    compile believing (String.ofList ("* i @belief".toList ++ ['\t', ' '] ++ "* it".toList)) =
        compile believing (String.ofList ("* i @belief".toList ++ ['\n'] ++ "* it".toList)) ∧
      compile believing "* i @belief * it" =
        ⟨"\\s*(.*)\\s*\\bi\\s+(belief|feel|think\\s+so)\\s*(.*)\\s*\\bit", false⟩ := by
  refine ⟨?_, by decide +kernel⟩
  exact compile_respaced believing "* i @belief".toList "* it".toList (by decide) (by decide) (by decide)
    (List.all_eq_true.mp (by decide)) (List.all_eq_true.mp (by decide))

end Colloquy.Pattern
