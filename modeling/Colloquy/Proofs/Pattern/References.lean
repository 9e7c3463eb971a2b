import Colloquy.Proofs.Pattern.Symbols

/-! What the references of a pattern are replaced with: bare words, and groups of words. -/

namespace Colloquy.Pattern

open Text

variable {synonyms : List Synonym}

/-! References. -/

theorem resolveRun_cons {c : Char} (chars : List Char) (other : c ≠ '@') :
    resolveRun synonyms (c :: chars) = c :: resolveRun synonyms chars := by
  have step : reference? (c :: chars) = (reference? chars).map fun p => (c :: p.1, p.2) := by
    rw [reference?]
    · exact fun same => absurd same other
    · exact fun _ _ same => absurd same other
  rw [resolveRun, resolveRun, step]
  cases reference? chars <;> rfl

theorem expandReferences_cons {c : Char} (rest : List Char) (other : c ≠ '@') :
    expandReferences synonyms (c :: rest) = c :: expandReferences synonyms rest := by
  have alone : resolveRun synonyms [c] = [c] := resolveRun_cons [] other
  simp only [expandReferences, runs]
  cases runs isBlank rest with
  | nil => cases isBlank c <;> simp [alone]
  | cons r more =>
    obtain ⟨kind, chars⟩ := r
    have longer : resolveRun synonyms (c :: chars) = c :: resolveRun synonyms chars :=
      resolveRun_cons chars other
    cases kind <;> cases isBlank c <;> simp [alone, longer]

theorem expandReferences_append {chars : List Char} (rest : List Char) (unsigned : '@' ∉ chars) :
    expandReferences synonyms (chars ++ rest) = chars ++ expandReferences synonyms rest := by
  induction chars with
  | nil => rfl
  | cons c chars ih =>
    obtain ⟨other, unsigned⟩ := List.ne_and_not_mem_of_not_mem_cons unsigned
    rw [List.cons_append, expandReferences_cons _ other.symm, ih unsigned, List.cons_append]

/-- A reference before a blank, or at the end, is resolved. -/
theorem expandReferences_reference (w : Word) {rest : List Char}
    (apart : ∀ c ∈ rest.head?, isBlank c = true) :
    expandReferences synonyms ('@' :: (w.text ++ rest)) =
      resolve synonyms w.text ++ expandReferences synonyms rest := by
  obtain ⟨l, more, first⟩ := w.text_first
  have solid : ∀ c ∈ '@' :: w.text, isBlank c = false := by
    intro c member
    rcases List.mem_cons.mp member with rfl | member
    · decide
    · obtain ⟨l, _, rfl⟩ := List.mem_map.mp member
      exact isBlank_of_isWord l.property
  have single : runs isBlank ('@' :: (w.text ++ rest)) =
      ⟨false, '@' :: w.text⟩ :: runs isBlank rest := by
    refine runs_piece (List.cons_ne_nil _ _) solid fun r begins => ?_
    cases rest with
    | nil => simp [runs] at begins
    | cons c rest =>
      obtain ⟨more, others, shape⟩ := exists_runs_cons isBlank c rest
      rw [shape] at begins
      cases begins
      simpa using apart c rfl
  have referred : reference? ('@' :: w.text) = some ([], w.text) := by rw [first]; rfl
  rw [expandReferences, single, List.flatMap_cons, if_neg Bool.false_ne_true, resolveRun, referred]
  rfl

/-! The bits of words and references. -/

/-- A word that can stand in a group without being taken for anything else in a pattern. -/
def Synonym.Fit (s : Synonym) : Prop :=
  ∀ w ∈ s.word :: s.equivalents, ∀ c ∈ w.toList, isBlank c = false ∧ c ∉ "*@\\()".toList

variable {s t : Symbol}

@[simp] theorem bitText_append (bits more : List Bit) :
    bitText (bits ++ more) = bitText bits ++ bitText more := List.flatMap_append

@[simp] theorem bitText_nil : bitText [] = [] := rfl

@[simp] theorem bitText_cons (b : Bit) (bits : List Bit) :
    bitText (b :: bits) = b.text ++ bitText bits := List.flatMap_cons

theorem bitText_word (w : Word) : bitText w.bits = w.text := by
  rw [← written_word, bitText, Word.bits, List.flatMap_map]
  rfl

theorem bits_cases (solid : s ≠ .wild) :
    (s.isKnown synonyms = false ∧ ∃ w : Word, s.bits synonyms = w.bits) ∨
      s.isKnown synonyms = true ∧
        ∃ x ∈ synonyms, s.bits synonyms = [.group (x.word :: x.equivalents)] := by
  cases s with
  | wild => contradiction
  | word w => exact .inl ⟨rfl, w, rfl⟩
  | reference w =>
    rw [Symbol.bits, Symbol.isKnown, ← List.isSome_find?]
    cases found : synonyms.find? (·.word == String.ofList w.text) with
    | none => exact .inl ⟨rfl, w, rfl⟩
    | some x => exact .inr ⟨rfl, x, List.mem_of_find?_eq_some found, rfl⟩

theorem resolve_eq (w : Word) :
    resolve synonyms w.text = bitText ((Symbol.reference w).bits synonyms) := by
  rw [resolve, groupOf?, Symbol.bits]
  cases synonyms.find? (·.word == String.ofList w.text) with
  | none => exact (bitText_word w).symm
  | some x => simp [Synonym.group, bitText, Bit.text]

def Symbol.resolved (synonyms : List Synonym) : Symbol → List Char
  | .wild => ['*']
  | s => bitText (s.bits synonyms)

theorem resolved_eq (solid : s ≠ .wild) : s.resolved synonyms = bitText (s.bits synonyms) := by
  cases s with
  | wild => contradiction
  | _ => rfl

/-- How what a symbol becomes begins and ends, and what is not in it. -/
structure Block (known : Bool) (chars : List Char) : Prop where
  solid : ∀ c ∈ chars, isBlank c = false ∧ c ≠ '*'
  first : ∃ c cs, chars = c :: cs ∧ c ≠ ')' ∧ c ≠ '\\' ∧ (c = '(' ↔ known = true)
  last : ∃ cs c, chars = cs ++ [c] ∧ c ≠ '(' ∧ (c = ')' ↔ known = true)

theorem block_word (w : Word) : Block false w.text where
  solid := by
    intro c member
    obtain ⟨l, _, rfl⟩ := List.mem_map.mp member
    exact ⟨isBlank_of_isWord l.property, letter_ne l (by decide)⟩
  first := by
    obtain ⟨l, more, first⟩ := w.text_first
    exact ⟨_, _, first, letter_ne l (by decide), letter_ne l (by decide),
      by simp [letter_ne l (c := '(') (by decide)]⟩
  last := by
    obtain ⟨before, l, last⟩ := w.text_last
    exact ⟨_, _, last, letter_ne l (by decide), by simp [letter_ne l (c := ')') (by decide)]⟩

theorem mem_of_mem_intercalate {sign c : Char} {texts : List (List Char)}
    (member : c ∈ [sign].intercalate texts) : c = sign ∨ ∃ chars ∈ texts, c ∈ chars := by
  induction texts with
  | nil => contradiction
  | cons chars rest ih =>
    cases rest with
    | nil =>
      rw [List.intercalate_singleton] at member
      exact .inr ⟨chars, List.mem_cons_self, member⟩
    | cons next rest =>
      rw [List.intercalate_cons_cons, List.mem_append, List.mem_append, List.mem_singleton] at member
      rcases member with (own | same) | inside
      · exact .inr ⟨chars, List.mem_cons_self, own⟩
      · exact .inl same
      · refine (ih inside).imp_right ?_
        rintro ⟨chars', later, own⟩
        exact ⟨chars', List.mem_cons_of_mem _ later, own⟩

/-- A group of fit words is a block that is closed on both sides. -/
theorem block_group {words : List String} (fit : ∀ w ∈ words, ∀ c ∈ w.toList,
    isBlank c = false ∧ c ∉ "*@\\()".toList) : Block true (Bit.group words).text where
  solid := by
    intro c member
    rw [Bit.text, List.mem_cons, List.mem_append, List.mem_singleton] at member
    rcases member with rfl | inside | rfl
    · decide
    · rcases mem_of_mem_intercalate inside with rfl | ⟨chars, own, inside⟩
      · decide
      · obtain ⟨w, word, rfl⟩ := List.mem_map.mp own
        obtain ⟨solid, signs⟩ := fit w word c inside
        exact ⟨solid, fun same => signs (by simp [same])⟩
    · decide
  first := ⟨_, _, rfl, by decide, by decide, by simp⟩
  last := ⟨_, _, List.cons_append.symm, by decide, by simp⟩

/-- What a symbol becomes is a block, unless it is an asterisk. -/
theorem block_resolved (fit : ∀ x ∈ synonyms, x.Fit) (solid : s ≠ .wild) :
    Block (s.isKnown synonyms) (s.resolved synonyms) := by
  rw [resolved_eq solid]
  rcases bits_cases solid with ⟨known, w, bits⟩ | ⟨known, x, member, bits⟩
  · rw [known, bits, bitText_word]
    exact block_word w
  · rw [known, bits, bitText, List.flatMap_singleton]
    exact block_group (fit x member)

theorem expandReferences_symbol {rest : List Char}
    (apart : ∀ w, s = .reference w → ∀ c ∈ rest.head?, isBlank c = true) :
    expandReferences synonyms (s.text ++ rest) =
      s.resolved synonyms ++ expandReferences synonyms rest := by
  cases s with
  | word w =>
    have unsigned : '@' ∉ w.text := by
      intro member
      obtain ⟨l, _, same⟩ := List.mem_map.mp member
      exact letter_ne l (by decide) same
    rw [Symbol.text, expandReferences_append _ unsigned, Symbol.resolved, Symbol.bits, bitText_word]
    exact nofun
  | reference w =>
    rw [Symbol.text, List.cons_append, expandReferences_reference w (apart w rfl), resolve_eq]
    rfl
  | wild => exact expandReferences_cons rest (by decide)

theorem blankText_blank {blanks : List Blank} : ∀ c ∈ blankText blanks, isBlank c = true := by
  intro c member
  obtain ⟨b, _, rfl⟩ := List.mem_map.mp member
  exact b.property

theorem trail_cons (write : Symbol → List Char) (blanks : List Blank) (t : Symbol)
    (rest : List (List Blank × Symbol)) :
    trail write ((blanks, t) :: rest) = blankText blanks ++ (write t ++ trail write rest) := by
  rw [trail, List.flatMap_cons, List.append_assoc]
  rfl

theorem trail_wild (blanks : List Blank) (rest : List (List Blank × Symbol)) :
    trail (Symbol.resolved synonyms) ((blanks, .wild) :: rest) =
      blankText blanks ++ '*' :: trail (Symbol.resolved synonyms) rest := trail_cons _ _ _ _

/-- Symbols one after the other are resolved one by one. -/
theorem expandReferences_trail {more : List (List Blank × Symbol)} (chained : Chained s more) :
    expandReferences synonyms (s.text ++ trail Symbol.text more) =
      s.resolved synonyms ++ trail (Symbol.resolved synonyms) more := by
  induction more generalizing s with
  | nil => exact expandReferences_symbol nofun
  | cons m rest ih =>
    obtain ⟨blanks, t⟩ := m
    obtain ⟨follows, chained⟩ := chained
    have unsigned : '@' ∉ blankText blanks := fun member =>
      absurd (blankText_blank _ member) (by decide)
    rw [trail_cons, trail_cons, expandReferences_symbol, expandReferences_append _ unsigned, ih chained]
    rintro w rfl c begins
    have nonempty : blankText blanks ≠ [] := by
      rw [blankText, ne_eq, List.map_eq_nil_iff]
      exact follows
    rw [List.head?_append_of_ne_nil _ nonempty] at begins
    exact blankText_blank c (List.mem_of_mem_head? begins)

end Colloquy.Pattern
