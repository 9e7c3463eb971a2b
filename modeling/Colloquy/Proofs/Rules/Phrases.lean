import Colloquy.Proofs.Pattern.Expansion
import Colloquy.Proofs.Regex.Phrases
import Colloquy.Proofs.Rules.Ready

/-! What decompositions of phrases match, and what they capture. -/

namespace Colloquy.Rules

open Text Pattern

/-- A decomposition of phrases can be made ready. -/
theorem compile_phrases (synonyms : List Synonym) (keyword : String) (phrases : List Phrase)
    {written : List String} (answered : written ≠ []) :
    ∃ d, (compileDecomposition synonyms keyword
        ⟨String.ofList (ofPhrases phrases), written⟩).outcome = .ok d ∧
      opensWithCapture d.expression = true ∧ d.expression.groups = phrases.length + 1 ∧
        d.expression.body = Regex.sequence (Regex.partsOf 1 (piecesOf phrases)) := by
  have nonempty : piecesOf phrases ≠ [] := by cases phrases <;> exact List.cons_ne_nil _ _
  obtain ⟨e, parsed, source, body, groups⟩ := Regex.parse_written nonempty
  have compiled := compile_ofPhrases synonyms phrases
  refine ⟨⟨String.ofList (ofPhrases phrases), e, written.map Reassembly.parse, false⟩, ?_, ?_,
    groups.trans (Regex.groupsOf_piecesOf phrases), body⟩
  · have made : compileExpression (String.ofList (Pattern.written (piecesOf phrases))) keyword
        (String.ofList (ofPhrases phrases)) false = .ok e := by
      rw [compileExpression, parsed]
    have replies : written.isEmpty = false := List.isEmpty_eq_false_iff.mpr answered
    simp only [compileDecomposition, replies, compiled, made]
    rfl
  · rw [opensWithCapture, source, String.toList_ofList]
    cases phrases <;> exact List.isPrefixOf_iff_prefix.mpr ⟨_, rfl⟩

/-- A decomposition of phrases matches a line just where they stand in it one after the other. Then
it has a group before, between and after them, for the stretches that are as far right as they can
be, the first one first. -/
theorem phrases_placed (synonyms : List Synonym) (keyword : String) (phrases : List Phrase)
    (answer : String) (others : List String) :
    ∃ d, (compileDecomposition synonyms keyword
        ⟨String.ofList (ofPhrases phrases), answer :: others⟩).outcome = .ok d ∧
      d.expression.groups = phrases.length + 1 ∧
        ∀ text, '\n' ∉ text →
          ((d.match? text).isSome ↔ ∃ es, Fits text 0 phrases es) ∧
            ∀ m, d.match? text = some m → ∃ es, Rightmost text 0 phrases es ∧
              ∀ n, m.final.captures.lookup (n + 1) = (around text 0 es)[n]? := by
  obtain ⟨d, made, opens, groups, body⟩ :=
    compile_phrases synonyms keyword phrases (List.cons_ne_nil answer others)
  refine ⟨d, made, groups, fun text line => ?_⟩
  have found : d.match? text =
      (Regex.follow 1 (piecesOf phrases) ⟨placeAt text 0, []⟩).map
        (Regex.Match.mk (.start text)) := by
    rw [Decomposition.match?, if_pos opens, body, Regex.matchStart?, Regex.matchAt?]
    rfl
  constructor
  · rw [found, Option.isSome_map]
    exact Regex.follow_isSome_iff line phrases (Nat.zero_le _)
  · intro m matched
    obtain ⟨r, reached, rfl⟩ := Option.map_eq_some_iff.mp (found.symm.trans matched)
    obtain ⟨es, best, records⟩ :=
      Regex.follow_some line phrases (Nat.zero_le _) (fun n _ => rfl) reached
    exact ⟨es, best, fun n => by rw [Nat.add_comm, records.added n]⟩

def remembering : Phrase where
  first := ⟨[⟨'i', by decide⟩], List.cons_ne_nil _ _⟩
  more := [(⟨[⟨' ', by decide⟩], List.cons_ne_nil _ _⟩,
    ⟨[⟨'r', by decide⟩, ⟨'e', by decide⟩, ⟨'m', by decide⟩, ⟨'e', by decide⟩, ⟨'m', by decide⟩,
      ⟨'b', by decide⟩, ⟨'e', by decide⟩, ⟨'r', by decide⟩], List.cons_ne_nil _ _⟩)]

/-- A phrase that is said twice is found where it is said last, and what was said before it goes
into the first group. -/
theorem remembering_placed : ∃ d,
    (compileDecomposition [] "remember" ⟨"* i remember *", ["(2)"]⟩).outcome = .ok d ∧
      '\n' ∉ " yes i remember that i  remember   him ".toList ∧
        ∃ m, d.match? " yes i remember that i  remember   him ".toList = some m ∧
          m.group? 1 = some "yes i remember that ".toList ∧ m.group? 2 = some "him ".toList ∧
            ∃ es, Rightmost " yes i remember that i  remember   him ".toList 0 [remembering] es ∧
              ∀ n, m.final.captures.lookup (n + 1) =
                (around " yes i remember that i  remember   him ".toList 0 es)[n]? := by
  have line : '\n' ∉ " yes i remember that i  remember   him ".toList := by decide
  have written : String.ofList (ofPhrases [remembering]) = "* i remember *" := by decide +kernel
  have checked : (compileDecomposition [] "remember" ⟨"* i remember *", ["(2)"]⟩).outcome.toOption.any
      fun d => (d.match? " yes i remember that i  remember   him ".toList).any fun m =>
        m.group? 1 == some "yes i remember that ".toList && m.group? 2 == some "him ".toList := by
    decide +kernel
  obtain ⟨d, made, found⟩ := exists_of_any checked
  obtain ⟨m, matched, groups⟩ := (Option.any_eq_true _ _).mp found
  obtain ⟨d', made', _, placed⟩ := phrases_placed [] "remember" [remembering] "(2)" []
  rw [written, made] at made'
  cases made'
  obtain ⟨es, best, captured⟩ := (placed _ line).2 m matched
  rw [Bool.and_eq_true, beq_iff_eq, beq_iff_eq] at groups
  exact ⟨d, made, line, m, matched, groups.1, groups.2, es, best, captured⟩

end Colloquy.Rules
