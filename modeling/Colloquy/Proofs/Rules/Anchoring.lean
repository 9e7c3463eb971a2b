import Colloquy.Proofs.Regex.Agreement
import Colloquy.Proofs.Regex.Opening
import Colloquy.Proofs.Regex.Run
import Colloquy.Proofs.Rules.Ready

/-! Decompositions that begin with a capture are matched at the start of a fragment only. This leaves
out a match further on exactly where they have alternatives or repeat what they have captured. -/

namespace Colloquy

open Text

namespace Regex

variable {r rest : Regex} {k : Next} {before after text : List Char}

/-! Searches. -/

theorem searchFrom?_isSome_iff : (r.searchFrom? before after).isSome ↔
    ∃ skipped more, after = skipped ++ more ∧
      (r.matchAt? false ⟨skipped.reverse ++ before, more⟩).isSome := by
  induction after generalizing before with
  | nil =>
    constructor
    · intro found
      exact ⟨[], [], rfl, found⟩
    · rintro ⟨skipped, more, split, found⟩
      obtain ⟨rfl, rfl⟩ := List.append_eq_nil_iff.mp split.symm
      exact found
  | cons c after ih =>
    have step : (r.searchFrom? before (c :: after)).isSome ↔
        (r.matchAt? false ⟨before, c :: after⟩).isSome ∨ (r.searchFrom? (c :: before) after).isSome := by
      rw [searchFrom?]
      cases r.matchAt? false ⟨before, c :: after⟩ <;> simp
    rw [step, ih]
    constructor
    · rintro (found | ⟨skipped, more, rfl, found⟩)
      · exact ⟨[], c :: after, rfl, found⟩
      · exact ⟨c :: skipped, more, rfl, by simpa using found⟩
    · rintro ⟨skipped, more, split, found⟩
      cases skipped with
      | nil =>
        cases split
        exact .inl found
      | cons x skipped =>
        obtain ⟨rfl, rfl⟩ := List.cons.inj split
        exact .inr ⟨skipped, more, rfl, by simpa using found⟩

theorem matchAt?_isSome (place : Cursor) :
    (r.matchAt? false place).isSome = (matchThen r some ⟨place, []⟩).isSome := by
  simp [matchAt?]

/-- An expression is found in a text just if it matches from some place on. -/
theorem search?_isSome_iff : (r.search? text).isSome ↔
    ∃ i, i ≤ text.length ∧ (matchThen r some ⟨placeAt text i, []⟩).isSome := by
  rw [search?, searchFrom?_isSome_iff]
  constructor
  · rintro ⟨skipped, more, rfl, found⟩
    refine ⟨skipped.length, by simp, ?_⟩
    simpa [matchAt?_isSome, placeAt] using found
  · rintro ⟨i, inside, found⟩
    refine ⟨text.take i, text.drop i, (List.take_append_drop i text).symm, ?_⟩
    simpa [matchAt?_isSome, placeAt] using found

theorem search?_of_matchStart? {m : Match} (first : r.matchStart? text = some m) :
    r.search? text = some m := by
  cases text with
  | nil => exact first
  | cons c rest =>
    rw [matchStart?, Cursor.start] at first
    rw [search?, searchFrom?, first]

/-- A search finds what a match at the start does unless it finds something only further on. -/
theorem matchStart?_eq_search?_iff : r.matchStart? text = r.search? text ↔
    (r.matchStart? text = none → r.search? text = none) := by
  constructor
  · intro same none_
    rw [← same, none_]
  · intro nowhere
    cases first : r.matchStart? text with
    | none => rw [nowhere first]
    | some m => rw [search?_of_matchStart? first]

/-! Captures at the start. -/

/-- An expression that begins with a capture matches from a place just if the rest does from some place after
blanks and any text in one line. -/
theorem matchThen_opening_isSome_iff {captures : List (Nat × Span)} :
    (matchThen (opening rest) k ⟨⟨before, after⟩, captures⟩).isSome ↔
      ∃ gap more, after = gap ++ more ∧ (∀ c ∈ gap, blankTest.accepts c) ∧
        ∃ text left, more = text ++ left ∧ (∀ c ∈ text, CharTest.notNewline.accepts c) ∧
          (matchThen rest k ⟨⟨text.reverse ++ (gap.reverse ++ before), left⟩,
            (1, ⟨more, left⟩) :: captures⟩).isSome := by
  simp only [opening, matchThen, blanks, anyText, runFrom_isSome_iff]
  rfl

theorem isSome_of_agree (free : r.refersTo 1 = false) {p q : Progress} (alike : Alike 1 p q)
    (found : (matchThen r some p).isSome) : (matchThen r some q).isSome := by
  have agree := matchThen_agree free agree_some p q alike
  generalize matchThen r some p = a at agree found
  generalize matchThen r some q = b at agree ⊢
  cases agree with
  | some _ => rfl
  | none => contradiction

/-- A capture at the start reaches back to the start of a line, so that what follows it is found from
there if it is found at all. -/
theorem matchStart?_opening (free : rest.refersTo 1 = false) {skipped after : List Char}
    (line : '\n' ∉ skipped ++ after)
    (found : ((opening rest).matchAt? false ⟨skipped.reverse, after⟩).isSome) :
    ((opening rest).matchStart? (skipped ++ after)).isSome := by
  rw [matchAt?_isSome] at found
  obtain ⟨gap, more, rfl, _, text, left, rfl, _, here⟩ := matchThen_opening_isSome_iff.mp found
  rw [matchStart?, matchAt?_isSome]
  refine matchThen_opening_isSome_iff.mpr
    ⟨[], _, rfl, by simp, skipped ++ (gap ++ text), left, by simp, ?_, ?_⟩
  · intro c member
    have other : c ≠ '\n' := by
      rintro rfl
      exact line (by simpa using Or.imp_right (Or.imp_right .inl) (by simpa using member))
    simpa [CharTest.accepts] using other
  · refine isSome_of_agree free ⟨?_, ?_⟩ here
    · simp
    · exact .cons ⟨rfl, (absurd rfl ·)⟩ .nil

/-- An expression that begins with a capture, and does not repeat it, is found just where it matches at
the start. -/
theorem search?_opening (free : rest.refersTo 1 = false) (line : '\n' ∉ text) :
    (opening rest).matchStart? text = (opening rest).search? text := by
  rw [matchStart?_eq_search?_iff]
  intro nowhere
  by_contra later
  obtain ⟨skipped, after, rfl, found⟩ :=
    searchFrom?_isSome_iff.mp (Option.isSome_iff_ne_none.mpr later)
  have first := matchStart?_opening free line (by simpa using found)
  rw [nowhere] at first
  contradiction

end Regex

namespace Rules

/-- Whether an expression may be found further on though a capture opens it: it has alternatives, or
it repeats what its first group has captured. -/
def strays : Regex → Bool
  | .alt _ _ => true
  | r => r.refersTo 1

theorem strays_opening (rest : Regex) : strays (Regex.opening rest) = rest.refersTo 1 := rfl

/-- A decomposition finds what a search does, unless it begins with a capture, may stray from it, and
is found nowhere but further on. -/
theorem match?_eq_search?_iff {synonyms : List Pattern.Synonym} {keyword : String}
    {w : Script.Decomposition} {d : Decomposition}
    (made : (compileDecomposition synonyms keyword w).outcome = .ok d) {fragment : List Char}
    (line : '\n' ∉ fragment) :
    d.match? fragment = d.expression.body.search? fragment ↔
      (opensWithCapture d.expression → strays d.expression.body →
        d.expression.body.matchStart? fragment = none →
          d.expression.body.search? fragment = none) := by
  have parsed := (compileDecomposition_ok made).expression
  by_cases opens : opensWithCapture d.expression = true
  · rw [Decomposition.match?, if_pos opens]
    by_cases stray : strays d.expression.body = true
    · rw [Regex.matchStart?_eq_search?_iff]
      exact ⟨fun nowhere _ _ => nowhere, fun nowhere => nowhere opens stray⟩
    · refine ⟨fun _ _ found => absurd found stray, fun _ => ?_⟩
      obtain ⟨rest, shape | ⟨others, shape⟩⟩ := Regex.parse_opening parsed opens
      · rw [shape, strays_opening, Bool.not_eq_true] at stray
        rw [shape]
        exact Regex.search?_opening stray line
      · rw [shape] at stray
        exact absurd rfl stray
  · rw [Decomposition.match?, if_neg opens]
    exact ⟨fun _ found => absurd found opens, fun _ => rfl⟩

def excuse : Script.Decomposition := ⟨"* so (sorry|glad) and \\2 *", ["Why (2)?"]⟩

theorem excuse_found : ∃ d, (compileDecomposition [] "so" excuse).outcome = .ok d ∧
    '\n' ∉ "i am so sorry and sorry".toList ∧ d.match? "i am so sorry and sorry".toList =
      d.expression.body.search? "i am so sorry and sorry".toList := by
  have checked : (compileDecomposition [] "so" excuse).outcome.toOption.any
      fun d => !strays d.expression.body := by decide +kernel
  obtain ⟨d, made, steady⟩ := exists_of_any checked
  have steady : strays d.expression.body = false := (Bool.not_eq_eq_eq_not ..).mp steady
  have line : '\n' ∉ "i am so sorry and sorry".toList := by decide
  refine ⟨d, made, line, (match?_eq_search?_iff made line).mpr fun _ stray => ?_⟩
  exact absurd (stray.symm.trans steady) Bool.noConfusion

/-- A pattern of two alternatives, of which the second has no capture. -/
def alternatives : Script.Decomposition := ⟨"* x|y", ["Go on."]⟩

/-- An alternative without a capture is found by a search only. -/
theorem alternatives_missed : ∃ d, (compileDecomposition [] "x" alternatives).outcome = .ok d ∧
    '\n' ∉ "a y".toList ∧ d.match? "a y".toList ≠ d.expression.body.search? "a y".toList := by
  have checked : (compileDecomposition [] "x" alternatives).outcome.toOption.any fun d =>
      d.match? "a y".toList != d.expression.body.search? "a y".toList := by decide +kernel
  obtain ⟨d, made, missed⟩ := exists_of_any checked
  exact ⟨d, made, by decide, bne_iff_ne.mp missed⟩

end Rules
end Colloquy
