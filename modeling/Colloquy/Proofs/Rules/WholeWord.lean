import Colloquy.Proofs.Regex.Part
import Colloquy.Proofs.Rules.Anchoring

/-! Keywords are looked for between word edges. This finds whole words only, unless a keyword has
alternatives: then only the first of them has to begin at an edge, and only the last to end at one. -/

namespace Colloquy

open Text

namespace Regex

/-- Whether an expression matches a part of a text that begins and ends at a word edge. -/
def FindsWord (r : Regex) (text : List Char) : Prop :=
  ∃ j ≤ text.length, ∃ i ≤ j,
    (placeAt text i).atEdge = true ∧ (placeAt text j).atEdge = true ∧ r.matchesPart text i j = true

instance (r : Regex) (text : List Char) : Decidable (r.FindsWord text) :=
  inferInstanceAs (Decidable (∃ j ≤ text.length, ∃ i ≤ j, _ ∧ _ ∧ _))

/-- Whether one of some alternatives matches a part of a text, which begins at a word edge if it is the
first of them, and ends at one if it is the last. -/
def FindsHalfWord (bs : List (List Part)) (text : List Char) : Prop :=
  ∃ n b, bs[n]? = some b ∧ ∃ j ≤ text.length, ∃ i ≤ j,
    (n = 0 → (placeAt text i).atEdge = true) ∧
    (n + 1 = bs.length → (placeAt text j).atEdge = true) ∧
    (sequence b).matchesPart text i j = true

variable {bs : List (List Part)} {text : List Char}

theorem matchesPart_alternatives {i j : Nat} : (alternatives bs).matchesPart text i j = true ↔
    ∃ (n : Nat) (b : List Part), bs[n]? = some b ∧ (sequence b).matchesPart text i j = true := by
  rw [matchesPart, matchThen_alternatives_isSome]
  constructor
  · rintro ⟨b, member, matched⟩
    obtain ⟨n, found⟩ := List.mem_iff_getElem?.mp member
    exact ⟨n, b, found, matched⟩
  · rintro ⟨n, b, found, matched⟩
    exact ⟨b, List.mem_of_getElem? found, matched⟩

theorem FindsWord.half (finds : (alternatives bs).FindsWord text) : FindsHalfWord bs text := by
  obtain ⟨j, below, i, ordered, starts, ends, matched⟩ := finds
  obtain ⟨n, b, found, matched⟩ := matchesPart_alternatives.mp matched
  exact ⟨n, b, found, j, below, i, ordered, fun _ => starts, fun _ => ends, matched⟩

theorem FindsHalfWord.whole (finds : FindsHalfWord bs text) (single : bs.length = 1) :
    (alternatives bs).FindsWord text := by
  obtain ⟨n, b, found, j, below, i, ordered, starts, ends, matched⟩ := finds
  have only : n = 0 := by
    have inside := (List.getElem?_eq_some_iff.mp found).1
    omega
  refine ⟨j, below, i, ordered, starts only, ends (by omega), ?_⟩
  exact matchesPart_alternatives.mpr ⟨n, b, found, matched⟩

/-- Framed alternatives are found just if one of them is, with the edges that it has. -/
theorem search?_framed : ((alternatives (framed bs)).search? text).isSome ↔ FindsHalfWord bs text := by
  rw [search?_isSome_iff]
  constructor
  · rintro ⟨i, inside, found⟩
    obtain ⟨n, b, j, at_n, ordered, below, matched, starts, ends⟩ := (matchThen_framed inside).mp found
    exact ⟨n, b, at_n, j, below, i, ordered, starts, ends, matched⟩
  · rintro ⟨n, b, at_n, j, below, i, ordered, starts, ends, matched⟩
    have inside := Nat.le_trans ordered below
    exact ⟨i, inside,
      (matchThen_framed inside).mpr ⟨n, b, j, at_n, ordered, below, matched, starts, ends⟩⟩

end Regex

namespace Rules
open Regex

/-- A keyword is found wherever its own expression matches whole words, and nowhere else if it has no
alternatives. One of several alternatives may be found where it matches a part of a word. -/
theorem appliesTo_whole_words {synonyms : List Pattern.Synonym} {written : List Script.Rule}
    {rules : List Rule} (made : (compileRules synonyms written).outcome = .ok rules)
    {r : Rule} (member : r ∈ rules) (whole : .lone ∉ Token.scan r.keyword.toList) :
    ∃ e bs, Expression.parse r.keyword true = .ok e ∧ alternativesOf r.keyword true = .ok bs ∧
      e.body = Regex.alternatives bs ∧ ∀ text,
        (r.appliesTo text = true ↔ FindsHalfWord bs text) ∧
        (e.body.FindsWord text → r.appliesTo text = true) ∧
        (bs.length = 1 → r.appliesTo text = true → e.body.FindsWord text) := by
  obtain ⟨w, _, renders⟩ := (compileRules_ready made).renders r member
  have matcher := renders.matcher
  rw [← renders.keyword] at matcher
  obtain ⟨e, bs, parsed, parts, _, body, framing⟩ := parse_framed whole matcher
  refine ⟨e, bs, parsed, parts, body, fun text => ?_⟩
  have applies : r.appliesTo text = true ↔ FindsHalfWord bs text := by
    rw [Rule.appliesTo, framing, search?_framed]
  rw [applies, body]
  exact ⟨.rfl, FindsWord.half, fun single finds => finds.whole single⟩

def rulesFor (keyword : String) : List Script.Rule := [⟨keyword, 1, []⟩, ⟨fallbackKeyword, 0, []⟩]

theorem yes_found : ∃ rules r, (compileRules [] (rulesFor "yes")).outcome = .ok rules ∧ r ∈ rules ∧
    .lone ∉ Token.scan r.keyword.toList ∧ ∃ e, Expression.parse r.keyword true = .ok e ∧
      r.appliesTo "oh yes".toList = true ∧ e.body.FindsWord "oh yes".toList := by
  have checked : (compileRules [] (rulesFor "yes")).outcome.toOption.any
      fun rules => rules.any fun r => r.keyword == "yes" && r.appliesTo "oh yes".toList := by
    decide +kernel
  obtain ⟨rules, made, some_⟩ := exists_of_any checked
  obtain ⟨r, member, found⟩ := List.any_eq_true.mp some_
  obtain ⟨keyword, applies⟩ := Bool.and_eq_true_iff.mp found
  rw [beq_iff_eq] at keyword
  have whole : .lone ∉ Token.scan r.keyword.toList := by
    rw [keyword]
    decide
  obtain ⟨e, bs, parsed, parts, _, finds⟩ := appliesTo_whole_words made member whole
  have single : (alternativesOf "yes" true).toOption.any (·.length = 1) := by decide +kernel
  rw [← keyword, parts] at single
  exact ⟨rules, r, made, member, whole, e, parsed, applies,
    (finds _).2.2 (of_decide_eq_true single) applies⟩

/-- Of two alternatives, the first is found where only the second comes to the end of the word. -/
theorem half_word_found : ∃ rules r e, (compileRules [] (rulesFor "a|b")).outcome = .ok rules ∧
    r ∈ rules ∧ Expression.parse r.keyword true = .ok e ∧ r.appliesTo "ab".toList = true ∧
    ¬ e.body.FindsWord "ab".toList := by
  have checked : (compileRules [] (rulesFor "a|b")).outcome.toOption.any fun rules => rules.any
      fun r => r.appliesTo "ab".toList && (Expression.parse r.keyword true).toOption.any
        fun e => !decide (e.body.FindsWord "ab".toList) := by
    decide +kernel
  obtain ⟨rules, made, some_⟩ := exists_of_any checked
  obtain ⟨r, member, found⟩ := List.any_eq_true.mp some_
  obtain ⟨applies, own⟩ := Bool.and_eq_true_iff.mp found
  obtain ⟨e, parsed, missed⟩ := exists_of_any own
  exact ⟨rules, r, e, made, member, parsed, applies, by simpa using missed⟩

end Rules
end Colloquy
