import Mathlib.Data.List.Find
import Colloquy.Proofs.Substitution.Edged
import Colloquy.Proofs.Text.Runs

/-! Tables of words of word characters. They rewrite a text word by word: each of its words is looked up
as a whole, and all between words stays. -/

namespace Colloquy.Substitutions

open Text

variable {word before rest : List Char} {rs : List (Run Bool)} {t : Substitutions}
  {pairs others : List Substitution}

/-- Whether a word is made of word characters only. -/
def Solid (word : List Char) : Prop := word ≠ [] ∧ ∀ c ∈ word, isWord c = true

instance (word : List Char) : Decidable (Solid word) :=
  decidable_of_iff (word ≠ [] ∧ word.all isWord = true) (and_congr_right' List.all_eq_true)

theorem Solid.edged (solid : Solid word) : Edged word := by
  obtain ⟨some_, words⟩ := solid
  constructor
  · rw [List.head?_eq_some_head some_]
    exact words _ (List.head_mem some_)
  · rw [List.getLast?_eq_some_getLast some_]
    exact words _ (List.getLast_mem some_)

/-- A word of word characters opens a text exactly if it is the first of its words. -/
theorem opens_run {run : List Char} (solid : Solid word) (words : ∀ c ∈ run, isWord c = true)
    (ends : rest.head?.any isWord = false) : opens word (run ++ rest) = true ↔ word = run := by
  constructor
  · intro opened
    obtain ⟨rest', same, ends'⟩ := opens_iff.mp opened
    rcases List.append_eq_append_iff.mp same with ⟨more, longer, right⟩ | ⟨more, longer, right⟩
    · cases more with
      | nil => simpa using longer
      | cons c more =>
        have own := solid.2 c (by simp [longer])
        rw [right, List.cons_append, List.head?_cons, Option.any_some, own] at ends
        contradiction
    · cases more with
      | nil => simpa using longer.symm
      | cons c more =>
        have own := words c (by simp [longer])
        rw [right, List.cons_append, List.head?_cons, Option.any_some, own] at ends'
        contradiction
  · rintro rfl
    exact opens_iff.mpr ⟨rest, rfl, ends⟩

/-- A run of a text with its word replaced, if it is one and has a replacement. -/
def rewriteRun (replace : String → Option String) (r : Run Bool) : List Char :=
  if r.kind then ((replace (String.ofList r.chars)).map String.toList).getD r.chars else r.chars

/-- A text with each of its words replaced that has a replacement. -/
def rewrite (replace : String → Option String) (text : String) : String :=
  String.ofList ((runs isWord text.toList).flatMap (rewriteRun replace))

theorem scan_gap (solid : ∀ e ∈ t.entries, Solid e.word.toList) {gap : List Char}
    (blank : ∀ c ∈ gap, isWord c = false) :
    Cursor.scan (find? t.entries) ⟨before, gap ++ rest⟩ =
      gap ++ Cursor.scan (find? t.entries) ⟨gap.reverse ++ before, rest⟩ := by
  refine Cursor.scan_append fun b c d same => find?_gap (fun e member => (solid e member).edged) ?_
  simpa using blank c (by simp [same])

/-- At the start of a word the scan puts in what the table has for it, or passes the whole of it. Inside
the word the character before the place is one of its own. -/
theorem scan_word (solid : ∀ e ∈ t.entries, Solid e.word.toList) {run : List Char}
    (words : ∀ c ∈ run, isWord c = true) (begins : before.head?.any isWord = false)
    (ends : rest.head?.any isWord = false) :
    Cursor.scan (find? t.entries) ⟨before, run ++ rest⟩ =
      ((t.lookup? (String.ofList run)).map String.toList).getD run ++
        Cursor.scan (find? t.entries) ⟨run.reverse ++ before, rest⟩ := by
  have edged : ∀ e ∈ t.entries, Edged e.word.toList := fun e member => (solid e member).edged
  have first : t.entries.find? (fun e => opens e.word.toList (run ++ rest)) =
      t.entries.find? (·.word = String.ofList run) := by
    refine List.find?_congr fun e member => ?_
    rw [Bool.eq_iff_iff, opens_run (solid e member) words ends, decide_eq_true_eq, ← String.toList_inj,
      String.toList_ofList]
  have here := find?_eq edged false before (run ++ rest)
  rw [begins, if_neg Bool.false_ne_true, first] at here
  rw [lookup?]
  cases found : t.entries.find? (·.word = String.ofList run) with
  | some e =>
    have same : e.word = String.ofList run := by simpa using List.find?_some found
    rw [found, Option.map_some, same, String.toList_ofList, List.drop_left] at here
    exact Cursor.scan_found (advances edged) here
  | none =>
    rw [found] at here
    refine Cursor.scan_append fun b c d same => ?_
    cases b with
    | nil => rwa [same] at here
    | cons x b =>
      have inside : ((x :: b).reverse ++ before).head?.any isWord = true := by
        have nonempty : (x :: b).reverse ≠ [] := by simp
        rw [List.head?_append_of_ne_nil _ nonempty, List.head?_eq_some_head nonempty]
        refine words _ ?_
        rw [same]
        exact List.mem_append_left _ (List.mem_reverse.mp (List.head_mem nonempty))
      rw [find?_eq edged, if_pos inside]

/-- Run by run the scan puts in what the table has for a word. -/
theorem scan_runs (solid : ∀ e ∈ t.entries, Solid e.word.toList) (maximal : Maximal isWord rs)
    (begins : ∀ r ∈ rs.head?, r.kind = true → before.head?.any isWord = false) :
    Cursor.scan (find? t.entries) ⟨before, unruns rs⟩ = rs.flatMap (rewriteRun t.lookup?) := by
  induction rs generalizing before with
  | nil =>
    refine Cursor.scan_nil (find?_gap (fun e member => (solid e member).edged) rfl)
  | cons r rs ih =>
    have kinds := maximal.solid r List.mem_cons_self
    have some_ := maximal.nonempty r List.mem_cons_self
    rw [unruns_cons, List.flatMap_cons, rewriteRun]
    cases kind : r.kind with
    | true =>
      rw [kind] at kinds
      have ends : (unruns rs).head?.any isWord = false := by
        cases rs with
        | nil => rfl
        | cons s rest =>
          obtain ⟨c, more, chars, own⟩ := maximal.tail.exists_cons
          have other := maximal.head_ne s rfl
          rw [unruns_cons, chars]
          simpa [own, kind] using other.symm
      rw [scan_word solid kinds (begins r rfl kind) ends, ih maximal.tail, if_pos rfl]
      intro s next word
      exact absurd (kind.trans word.symm) (maximal.head_ne s next)
    | false =>
      rw [kind] at kinds
      rw [scan_gap solid kinds, ih maximal.tail, if_neg Bool.false_ne_true]
      intro s _ _
      have last : r.chars.reverse ≠ [] := by simpa using some_
      rw [List.head?_append_of_ne_nil _ last, List.head?_eq_some_head last]
      exact kinds _ (List.mem_reverse.mp (List.head_mem last))

/-- A table of words rewrites a text word by word, with what is listed last. -/
theorem apply_ofPairs (solid : ∀ s ∈ pairs, Solid s.word.toList) (text : String) :
    (ofPairs pairs).apply text = rewrite (latest? pairs) text := by
  have entries : ∀ e ∈ (ofPairs pairs).entries, Solid e.word.toList := by
    intro e member
    obtain ⟨s, listed, same⟩ := exists_of_mem_ofPairs member
    exact same ▸ solid s listed
  have lookup : (ofPairs pairs).lookup? = latest? pairs := funext (lookup?_ofPairs pairs)
  have runs : Cursor.scan (find? (ofPairs pairs).entries) ⟨[], unruns (runs isWord text.toList)⟩ =
      (runs isWord text.toList).flatMap (rewriteRun (ofPairs pairs).lookup?) :=
    scan_runs entries (maximal_runs isWord text.toList) fun _ _ _ => rfl
  rw [unruns_runs, lookup] at runs
  rw [apply, applyTo_eq_scan (fun e member => (entries e member).edged), runs, rewrite]

theorem latest?_congr {w : String} (alike : others.filter (·.word = w) = pairs.filter (·.word = w)) :
    latest? others w = latest? pairs w := by
  have last (l : List Substitution) : latest? l w = ((l.filter (·.word = w)).getLast?).map (·.replacement) := by
    rw [latest?, ← List.head?_filter, List.filter_reverse, List.head?_reverse]
  rw [last, last, alike]

/-- A table of words of word characters rewrites a text word by word, each word as the last listed; the
order in which different words are listed does not matter. -/
theorem apply_word_by_word (solid : ∀ s ∈ pairs, Solid s.word.toList) :
    (∀ text, (ofPairs pairs).apply text = rewrite (latest? pairs) text) ∧
      ∀ others, (∀ w, others.filter (·.word = w) = pairs.filter (·.word = w)) →
        ∀ text, (ofPairs others).apply text = (ofPairs pairs).apply text := by
  refine ⟨apply_ofPairs solid, fun others alike text => ?_⟩
  have solid' : ∀ s ∈ others, Solid s.word.toList := by
    intro s member
    have kept : s ∈ others.filter (·.word = s.word) := List.mem_filter.mpr ⟨member, by simp⟩
    rw [alike] at kept
    exact solid s (List.mem_filter.mp kept).1
  have same : latest? others = latest? pairs := funext fun w => latest?_congr (alike w)
  rw [apply_ofPairs solid', apply_ofPairs solid, same]

/-- A table in which words stand for each other, and one is listed twice. -/
def swapped : List Substitution := [⟨"i", "you"⟩, ⟨"you", "me"⟩, ⟨"you", "i"⟩, ⟨"yours", "mine"⟩]

theorem swapped_word_by_word : (∀ s ∈ swapped, Solid s.word.toList) ∧
    (ofPairs swapped).apply "i, you; yours!" = "you, i; mine!" := by
  have solid : ∀ s ∈ swapped, Solid s.word.toList := by decide +kernel
  refine ⟨solid, ((apply_word_by_word solid).1 _).trans ?_⟩
  decide +kernel

end Colloquy.Substitutions
