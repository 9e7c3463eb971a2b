import Colloquy.Proofs.Text.Runs
import Colloquy.Fragment

/-! Texts that an input may be without being broken. They are one fragment, and the whole of it. -/

namespace Colloquy.Fragment

open Text

variable {rs : List (Run Kind)} {breaks : Run Kind → Bool} {text : List Char}

theorem breakDashes_of_no_mark (none_ : ∀ r ∈ rs, r.kind ≠ .mark) : breakDashes rs = unruns rs := by
  fun_induction breakDashes rs with
  | case1 a b c rest broken =>
    exact absurd broken.2.1 (none_ b (by simp))
  | case2 a b c rest unbroken ih =>
    rw [ih fun r member => none_ r (List.mem_cons_of_mem _ member)]
    rfl
  | case3 => rfl

theorem breakRuns_of_no_break (none_ : ∀ r ∈ rs, breaks r = false) :
    breakRuns breaks false rs = unruns rs := by
  induction rs with
  | nil => rfl
  | cons r rest ih =>
    obtain ⟨first, others⟩ := List.forall_mem_cons.mp none_
    have next : rest.head?.any breaks = false := by
      cases rest with
      | nil => rfl
      | cons s more => exact others s List.mem_cons_self
    rw [breakRuns, first, next, ih others]
    simp [unruns]

/-- A text in lowercase without symbols, dashes and punctuation, with narrow gaps, and without the
conjunction that breaks. -/
structure Plain (text : List Char) : Prop where
  nonempty : text ≠ []
  symbols : ∀ c ∈ text, symbols.contains c = false
  dashes : ∀ c ∈ text, (c == '-') = false
  stops : ∀ c ∈ text, isStop c = false
  gaps : collapse text = text
  words : ∀ r ∈ runs (kindBy isWord) text, r.chars ≠ conjunction

/-- Whether a text is plain, checked character by character and run by run. -/
def isPlain (text : List Char) : Bool :=
  !text.isEmpty && text.all (fun c => !symbols.contains c && !(c == '-') && !isStop c) &&
    collapse text == text && (runs (kindBy isWord) text).all (·.chars != conjunction)

theorem plain_of_isPlain (checked : isPlain text = true) : Plain text := by
  simp only [isPlain, Bool.and_eq_true, List.all_eq_true, Bool.not_eq_true', beq_iff_eq, bne_iff_ne,
    List.isEmpty_eq_false_iff] at checked
  obtain ⟨⟨⟨nonempty, clear⟩, gaps⟩, words⟩ := checked
  exact ⟨nonempty, fun c member => (clear c member).1.1, fun c member => (clear c member).1.2,
    fun c member => (clear c member).2, gaps, words⟩

theorem kindBy_ne_mark {isMark : Char → Bool} (none_ : ∀ c ∈ text, isMark c = false) :
    ∀ r ∈ runs (kindBy isMark) text, r.kind ≠ .mark := by
  intro r member marked
  obtain ⟨c, inside, same⟩ := exists_of_mem_runs member
  have unmarked := none_ c ((chars_isInfix_of_mem_runs member).subset inside)
  rw [marked, kindBy, unmarked, if_neg Bool.false_ne_true] at same
  cases blank : isBlank c with
  | true => simp [blank] at same
  | false => simp [blank] at same

/-- A text without anything that breaks is only put into small letters. -/
theorem normalize_plain (plain : Plain (lower text)) : normalize text = lower text := by
  have blanked : (lower text).map blankSymbol = lower text := by
    refine (List.map_congr_left fun c member => ?_).trans (List.map_id _)
    rw [blankSymbol, plain.symbols c member]
    rfl
  have dashed : breakDashes (runs (kindBy (· == '-')) (lower text)) = lower text := by
    rw [breakDashes_of_no_mark (kindBy_ne_mark plain.dashes), unruns_runs]
  have stopped :
      breakRuns (·.kind = .mark) false (runs (kindBy isStop) (lower text)) = lower text := by
    rw [breakRuns_of_no_break, unruns_runs]
    exact fun r member => decide_eq_false (kindBy_ne_mark plain.stops r member)
  have joined : breakRuns (fun r => r.kind = .mark && r.chars == conjunction) false
      (runs (kindBy isWord) (lower text)) = lower text := by
    rw [breakRuns_of_no_break, unruns_runs]
    intro r member
    rw [beq_false_of_ne (plain.words r member), Bool.and_false]
  rw [normalize, blanked, dashed, stopped, joined, plain.gaps]

theorem parts_plain (plain : Plain text) : parts text = [text] := by
  have unbroken : ∀ c ∈ text, (c == breakMark) = false := by
    intro c member
    have other := plain.stops c member
    simp only [isStop, Bool.or_eq_false_iff] at other
    exact other.1.1.1.2
  rw [parts, runs_eq_singleton plain.nonempty unbroken]
  rfl

/-- A text without anything that breaks is one fragment. -/
theorem split_plain {text : String} (plain : Plain (lower text.toList)) :
    split text = [String.ofList (lower text.toList)] := by
  rw [split, normalize_plain plain, parts_plain plain]
  rfl

end Colloquy.Fragment
