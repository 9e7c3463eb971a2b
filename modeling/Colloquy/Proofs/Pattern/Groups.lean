import Colloquy.Proofs.Pattern.Translation
import Colloquy.Proofs.Regex.Bits

/-! The groups of the expression that a pattern becomes: one for each asterisk and for each reference
to a word with synonyms, in this order. -/

namespace Colloquy.Pattern

open Text Regex

variable {synonyms : List Synonym} {s t : Symbol} {b : Bit}

/-- Whether none of the words of a synonym has one of some signs in it. -/
def Synonym.Lacks (x : Synonym) (signs : List Char) : Prop :=
  ∀ w ∈ x.word :: x.equivalents, ∀ c ∈ w.toList, c ∉ signs

/-- Whether a bit of an expression is a piece, or the group of a word that is referred to. -/
def Rendered (synonyms : List Synonym) (b : Bit) : Prop :=
  (∃ p, b = .piece p) ∨ ∃ x ∈ synonyms, b = .group (x.word :: x.equivalents) ∧
    ∃ w : Word, x.word = String.ofList w.text

theorem rendered_word (w : Word) (member : b ∈ w.bits) : Rendered synonyms b := by
  obtain ⟨p, _, rfl⟩ := List.mem_map.mp member
  exact .inl ⟨p, rfl⟩

theorem rendered_symbol (member : b ∈ s.bits synonyms) : Rendered synonyms b := by
  cases s with
  | word w => exact rendered_word w member
  | wild => exact .inl ⟨_, List.mem_singleton.mp member⟩
  | reference w =>
    rw [Symbol.bits] at member
    cases found : synonyms.find? (·.word == String.ofList w.text) with
    | none =>
      rw [found] at member
      exact rendered_word w member
    | some x =>
      rw [found] at member
      refine .inr ⟨x, List.mem_of_find?_eq_some found, List.mem_singleton.mp member, w, ?_⟩
      simpa using List.find?_some found

theorem rendered_seam {opened ongoing : Bool} (member : b ∈ seam synonyms opened s t ongoing) :
    Rendered synonyms b := by
  unfold seam at member
  split at member
  · split at member
    · contradiction
    · exact .inl ⟨_, List.mem_singleton.mp member⟩
  · split at member
    · contradiction
    · exact .inl ⟨_, List.mem_singleton.mp member⟩
  · exact .inl ⟨_, List.mem_singleton.mp member⟩

/-- Symbols become pieces and groups of words that are referred to, and nothing else. -/
theorem rendered_bitsFrom {opened : Bool} {more : List (List Blank × Symbol)}
    (member : b ∈ bitsFrom synonyms opened s more) : Rendered synonyms b := by
  induction more generalizing opened s with
  | nil => exact rendered_symbol member
  | cons m rest ih =>
    rw [bitsFrom, List.mem_append, List.mem_append] at member
    rcases member with own | joins | later
    · exact rendered_symbol own
    · exact rendered_seam joins
    · exact ih later

theorem groupChars_cons (word : String) (others : List String) :
    ∃ rest, groupChars (word :: others) = word.toList ++ rest := by
  cases others with
  | nil => exact ⟨[], by simp [groupChars]⟩
  | cons other others =>
    exact ⟨_, by rw [groupChars, List.map_cons, List.map_cons, List.intercalate_cons_cons,
      List.append_assoc]⟩

theorem Synonym.Lacks.groupChars {x : Synonym} {signs : List Char} (lacks : x.Lacks signs)
    (bar : '|' ∉ signs) : ∀ c ∈ Regex.groupChars (x.word :: x.equivalents), c ∉ signs := by
  intro c member
  rcases mem_of_mem_intercalate member with rfl | ⟨chars, own, inside⟩
  · exact bar
  · obtain ⟨w, word, rfl⟩ := List.mem_map.mp own
    exact lacks w word c inside

/-- The groups of fit words without brackets are tame. -/
theorem Rendered.tame (rendered : Rendered synonyms b) (fit : ∀ x ∈ synonyms, x.Fit)
    (lacks : ∀ x ∈ synonyms, x.Lacks ['[']) : Tame b := by
  rcases rendered with ⟨p, rfl⟩ | ⟨x, member, rfl, w, word⟩
  · trivial
  · have closed : x.Lacks ['(', ')', '[', '\\'] := by
      intro v own c inside sign
      have fits := (fit x member v own c inside).2
      have open_ := lacks x member v own c inside
      simp at sign fits open_
      tauto
    refine ⟨closed.groupChars (by decide), ?_⟩
    obtain ⟨rest, text⟩ := groupChars_cons x.word x.equivalents
    obtain ⟨l, more, first⟩ := w.text_first
    rw [text, word, String.toList_ofList, first]
    simpa using letter_ne l (by decide)

theorem Rendered.unrepeated (rendered : Rendered synonyms b)
    (lacks : ∀ x ∈ synonyms, x.Lacks ['?', '*', '+', '\x7b']) : Unrepeated b := by
  rcases rendered with ⟨p, rfl⟩ | ⟨x, member, rfl, _⟩
  · trivial
  · exact (lacks x member).groupChars (by decide)

/-! Groups. -/

theorem bitsGroups_append (bits more : List Bit) :
    bitsGroups (bits ++ more) = bitsGroups bits + bitsGroups more := by
  induction bits with
  | nil => exact (Nat.zero_add _).symm
  | cons b bits ih => rw [List.cons_append, bitsGroups, bitsGroups, ih, Nat.add_assoc]

theorem bitsGroups_word (w : Word) : bitsGroups w.bits = 0 := by
  rw [← groupsOf_word w, Word.bits]
  induction w.pieces with
  | nil => rfl
  | cons p ps ih => simpa [bitsGroups, groupsOf, bitGroups] using ih

theorem captures_eq (solid : s ≠ .wild) : s.captures synonyms = s.isKnown synonyms := by
  cases s with
  | wild => contradiction
  | _ => rfl

theorem bitsGroups_symbol (s : Symbol) :
    bitsGroups (s.bits synonyms) = if s.captures synonyms then 1 else 0 := by
  by_cases star : s = .wild
  · rw [star]
    rfl
  · rw [captures_eq star]
    rcases bits_cases star with ⟨known, w, bits⟩ | ⟨known, x, _, bits⟩
    · rw [known, bits, bitsGroups_word]
      rfl
    · rw [known, bits]
      rfl

theorem bitsGroups_seam (opened ongoing : Bool) :
    bitsGroups (seam synonyms opened s t ongoing) = 0 := by
  unfold seam
  split
  · split <;> rfl
  · split <;> rfl
  · rfl

/-- Symbols give one group for each asterisk and each reference that is known. -/
theorem bitsGroups_bitsFrom (opened : Bool) (more : List (List Blank × Symbol)) :
    bitsGroups (bitsFrom synonyms opened s more) =
      (s :: more.map Prod.snd).countP (·.captures synonyms) := by
  induction more generalizing opened s with
  | nil =>
    rw [bitsFrom, bitsGroups_symbol]
    simp [List.countP_cons]
  | cons m rest ih =>
    rw [bitsFrom, bitsGroups_append, bitsGroups_append, bitsGroups_symbol, bitsGroups_seam, ih]
    simp only [List.map_cons, List.countP_cons]
    omega

theorem bits_ne_nil (l : Layout) : l.bits synonyms ≠ [] := by
  have word (w : Word) : w.bits ≠ [] := by
    intro empty
    have text := bitText_word w
    obtain ⟨l, more, first⟩ := w.text_first
    rw [empty, first] at text
    contradiction
  have symbol (s : Symbol) : s.bits synonyms ≠ [] := by
    by_cases star : s = .wild
    · rw [star]
      exact List.cons_ne_nil _ _
    · rcases bits_cases star with ⟨_, w, bits⟩ | ⟨_, x, _, bits⟩
      · rw [bits]
        exact word w
      · rw [bits]
        exact List.cons_ne_nil _ _
  rw [Layout.bits]
  cases l.more with
  | nil => exact symbol l.first
  | cons m rest => exact List.append_ne_nil_of_left_ne_nil (symbol l.first) _

/-- A pattern becomes the expression of its symbols, and its replies are kept for later if it has a
dollar sign. There is one group for each asterisk and each reference to a word with synonyms, from left
to right, unless a word of the synonyms opens a set. The expression can be read if no such word says
how often something is repeated. -/
theorem compile_groups (fit : ∀ x ∈ synonyms, x.Fit) (mark : Option Nat) (l : Layout) :
    compile synonyms (String.ofList (withMark mark l.text)) =
        ⟨String.ofList (bitText (l.bits synonyms)), mark.isSome⟩ ∧
      ((∀ x ∈ synonyms, x.Lacks ['[']) →
        (∀ e, Expression.parse (String.ofList (bitText (l.bits synonyms))) false = .ok e →
          e.groups = l.symbols.countP (·.captures synonyms) ∧
            ∃ parts, e.body = sequence parts ∧ Renders 1 (l.bits synonyms) parts) ∧
        ((∀ x ∈ synonyms, x.Lacks ['?', '+', '\x7b']) →
          ∃ e, Expression.parse (String.ofList (bitText (l.bits synonyms))) false = .ok e)) := by
  refine ⟨compile_layout fit mark l, fun closed => ?_⟩
  have rendered : ∀ b ∈ l.bits synonyms, Rendered synonyms b := fun b => rendered_bitsFrom
  have tame : ∀ b ∈ l.bits synonyms, Tame b := fun b member => (rendered b member).tame fit closed
  constructor
  · intro e parsed
    rw [Layout.symbols, ← bitsGroups_bitsFrom false]
    exact parse_bits (bits_ne_nil l) tame parsed
  · intro once
    have lacks : ∀ x ∈ synonyms, x.Lacks ['?', '*', '+', '\x7b'] := by
      intro x member w own c inside sign
      have fits := (fit x member w own c inside).2
      have steady := once x member w own c inside
      simp at sign fits steady
      tauto
    exact parse_bits_ok (bits_ne_nil l) tame fun b member => (rendered b member).unrepeated lacks

theorem isWord_a : isWord 'a' = true := by decide

theorem isWord_b : isWord 'b' = true := by decide

theorem isBlank_space : isBlank ' ' = true := by decide

def letterA : Word := ⟨[⟨'a', isWord_a⟩], List.cons_ne_nil _ _⟩

def letterB : Word := ⟨[⟨'b', isWord_b⟩], List.cons_ne_nil _ _⟩

def space : List Blank := [⟨' ', isBlank_space⟩]

/-- An asterisk between a word and a reference, and one at the end. -/
def apart : Layout where
  first := .word letterA
  more := [([], .wild), (space, .reference letterB), (space, .wild)]
  chained := ⟨trivial, trivial, List.cons_ne_nil _ _, trivial⟩

theorem apart_groups : (∀ x ∈ [Synonym.mk "b" ["c"]], x.Fit) ∧
    (∀ x ∈ [Synonym.mk "b" ["c"]], x.Lacks ['[']) ∧
    (∀ x ∈ [Synonym.mk "b" ["c"]], x.Lacks ['?', '+', '\x7b']) ∧
    compile [⟨"b", ["c"]⟩] "$ a* @b *" = ⟨"a\\b\\s*(.*)\\s*(b|c)\\b\\s*(.*)\\s*", true⟩ ∧
    ∃ e, Expression.parse "a\\b\\s*(.*)\\s*(b|c)\\b\\s*(.*)\\s*" false = .ok e ∧ e.groups = 3 := by
  have fit : ∀ x ∈ [Synonym.mk "b" ["c"]], x.Fit := by
    have solid : isBlank 'b' = false ∧ isBlank 'c' = false := by decide
    simpa [Synonym.Fit] using solid
  have closed : ∀ x ∈ [Synonym.mk "b" ["c"]], x.Lacks ['['] := by
    simp [Synonym.Lacks]
  have once : ∀ x ∈ [Synonym.mk "b" ["c"]], x.Lacks ['?', '+', '\x7b'] := by
    simp [Synonym.Lacks]
  obtain ⟨compiled, groups⟩ := compile_groups fit (some 1) apart
  obtain ⟨e, parsed⟩ := (groups closed).2 once
  exact ⟨fit, closed, once, compiled, e, parsed, ((groups closed).1 e parsed).1⟩

def brackets : List Synonym := [⟨"a", ["["]⟩, ⟨"b", ["]"]⟩]

def bracketed : Layout where
  first := .reference letterA
  more := [(space, .wild), (space, .reference letterB)]
  chained := ⟨List.cons_ne_nil _ _, trivial, trivial⟩

/-- All between the words that open and close a set is taken for members of the set. -/
theorem brackets_groups : (∀ x ∈ brackets, x.Fit) ∧
    ∃ e, Expression.parse (compile brackets (String.ofList (withMark none bracketed.text))).source
        false = .ok e ∧ e.groups ≠ bracketed.symbols.countP (·.captures brackets) := by
  have fit : ∀ x ∈ brackets, x.Fit := by
    have solid : (isBlank 'a' = false ∧ isBlank '[' = false) ∧
        (isBlank 'b' = false ∧ isBlank ']' = false) := by decide
    simpa [brackets, Synonym.Fit] using solid
  have checked : (Expression.parse (compile brackets (String.ofList
      (withMark none bracketed.text))).source false).toOption.any
        fun e => e.groups != bracketed.symbols.countP (·.captures brackets) := by decide +kernel
  obtain ⟨e, parsed, different⟩ := exists_of_any checked
  exact ⟨fit, e, parsed, bne_iff_ne.mp different⟩

end Colloquy.Pattern
