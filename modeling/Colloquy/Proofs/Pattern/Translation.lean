import Colloquy.Proofs.Pattern.References

/-! How a pattern of words, references and asterisks is made an expression, symbol by symbol. What has
been written for an asterisk is not taken for one again, nor is a group taken for parts of a pattern. -/

namespace Colloquy.Pattern

open Text

variable {synonyms : List Synonym} {s t : Symbol}

/-! Asterisks. -/

def solidMarks (chars : List Char) : List Mark := chars.map (Mark.mk [])

theorem marks_blank {blanks : List Char} (blank : ∀ c ∈ blanks, isBlank c = true) :
    marks blanks = ([], blanks) := by
  induction blanks with
  | nil => rfl
  | cons c blanks ih =>
    obtain ⟨first, blank⟩ := List.forall_mem_cons.mp blank
    rw [marks, if_pos first, ih blank]

theorem marks_solid {chars : List Char} (rest : List Char) (solid : ∀ c ∈ chars, isBlank c = false) :
    marks (chars ++ rest) = (solidMarks chars ++ (marks rest).1, (marks rest).2) := by
  induction chars with
  | nil => rfl
  | cons c chars ih =>
    obtain ⟨first, solid⟩ := List.forall_mem_cons.mp solid
    rw [List.cons_append, marks, if_neg (by simp [first]), ih solid]
    rfl

/-- The blanks before a character that is not blank belong to its mark. -/
theorem marks_gap {blanks : List Char} {c : Char} (rest : List Char)
    (blank : ∀ c ∈ blanks, isBlank c = true) (solid : isBlank c = false) :
    marks (blanks ++ c :: rest) = (⟨blanks, c⟩ :: (marks rest).1, (marks rest).2) := by
  rw [marks_append _ _ solid, marks_blank blank, List.nil_append]

theorem expandInner_false (m : Mark) (ms : List Mark) :
    expandInner false (m :: ms) = m.gap ++ expandInner true (⟨[], m.char⟩ :: ms) := by
  match ms with
  | [] => simp [expandInner, Mark.textFrom, Mark.text]
  | [b] => simp [expandInner, Mark.textFrom, Mark.text]
  | b :: c :: rest =>
    by_cases star : b.char = '*' <;> simp [expandInner, Mark.textFrom, Mark.text, star]

theorem expandInner_true (m : Mark) (ms : List Mark) :
    expandInner true (m :: ms) = expandInner true (⟨[], m.char⟩ :: ms) := by
  match ms with
  | [] => rfl
  | [b] => rfl
  | b :: c :: rest => rfl

theorem expandInner_next (c : Char) {m : Mark} (ms : List Mark) (other : m.char ≠ '*') :
    expandInner true (⟨[], c⟩ :: m :: ms) = c :: (m.gap ++ expandInner true (⟨[], m.char⟩ :: ms)) := by
  rw [expandInner_cons ms other, expandInner_false]
  rfl

/-- Only the last of solid characters has to do with an asterisk after them. -/
theorem expandInner_solid {chars : List Char} (c : Char) (ms : List Mark)
    (plain : ∀ x ∈ chars ++ [c], x ≠ '*') :
    expandInner true (solidMarks (chars ++ [c]) ++ ms) =
      chars ++ expandInner true (⟨[], c⟩ :: ms) := by
  induction chars with
  | nil => rfl
  | cons x chars ih =>
    obtain ⟨_, plain⟩ := List.forall_mem_cons.mp plain
    rw [List.cons_append, List.cons_append, ← ih plain]
    cases chars with
    | nil => exact expandInner_next x ms (plain c List.mem_cons_self)
    | cons y chars => exact expandInner_next x _ (plain y List.mem_cons_self)

theorem expandFirst_solid {c : Char} (rest : List Char) (solid : isBlank c = false) (other : c ≠ '*') :
    expandFirst (c :: rest) = c :: rest := by
  simp [expandFirst, solid, other]

theorem expandFirst_wild {blanks : List Char} {c : Char} (more : List Char)
    (blank : ∀ c ∈ blanks, isBlank c = true) (solid : isBlank c = false) (open_ : c ≠ ')')
    (plain : c ≠ '\\') :
    expandFirst ('*' :: (blanks ++ c :: more)) = capture ++ (edge ++ c :: more) := by
  have asterisk : isBlank '*' = false := by decide
  simp [expandFirst, asterisk, List.dropWhile_append_of_pos blank, solid, open_, plain]

theorem expandLast_solid (before : List Char) {c : Char} (solid : isBlank c = false)
    (other : c ≠ '*') : expandLast (before ++ [c]) = before ++ [c] := by
  simp [expandLast, solid, other]

theorem expandLast_wild (before : List Char) {blanks : List Char} {c : Char}
    (blank : ∀ c ∈ blanks, isBlank c = true) (solid : isBlank c = false) (closed : c ≠ '(') :
    expandLast (before ++ c :: (blanks ++ ['*'])) = before ++ c :: (edge ++ capture) := by
  have asterisk : isBlank '*' = false := by decide
  have reversed : ∀ c ∈ blanks.reverse, isBlank c = true := by simpa using blank
  simp [expandLast, asterisk, List.dropWhile_append_of_pos reversed, solid, closed]

theorem widenGaps_blank {c : Char} (rest : List Char) (blank : isBlank c = true) :
    widenGaps (c :: rest) =
      if rest.head?.any isBlank then widenGaps rest else gap ++ widenGaps rest := by
  cases rest with
  | nil => simp [widenGaps, runs, blank]
  | cons d rest =>
    obtain ⟨more, others, shape⟩ := exists_runs_cons isBlank d rest
    rw [widenGaps, runs, widenGaps, shape]
    cases next : isBlank d <;> simp [next, blank]

theorem widenGaps_blanks {blanks : List Char} (nonempty : blanks ≠ [])
    (blank : ∀ c ∈ blanks, isBlank c = true) : widenGaps blanks = gap := by
  rw [widenGaps, runs_eq_singleton nonempty blank]
  rfl

/-- No gap reaches across a character that is not blank. -/
theorem widenGaps_split (before : List Char) {c : Char} (rest : List Char)
    (solid : isBlank c = false) :
    widenGaps (before ++ c :: rest) = widenGaps before ++ widenGaps (c :: rest) := by
  induction before with
  | nil => rfl
  | cons b before ih =>
    rw [List.cons_append]
    by_cases blank : isBlank b = true
    · rw [widenGaps_blank _ blank, widenGaps_blank _ blank, ih]
      cases before with
      | nil => simp [solid, widenGaps, runs]
      | cons x before =>
        cases next : isBlank x <;> simp [next]
    · rw [Bool.not_eq_true] at blank
      rw [widenGaps_cons _ blank, widenGaps_cons _ blank, ih, List.cons_append]

/-! Symbols that follow each other. -/

theorem seam_before_wild (opened ongoing : Bool) (solid : s ≠ .wild) :
    seam synonyms opened s .wild ongoing =
      if ongoing && s.isKnown synonyms then [] else [.piece .edge] := by
  cases s with
  | wild => contradiction
  | _ => rfl

theorem seam_after_wild (opened ongoing : Bool) (solid : t ≠ .wild) :
    seam synonyms opened .wild t ongoing =
      if opened && t.isKnown synonyms then [] else [.piece .edge] := by
  cases t with
  | wild => contradiction
  | _ => rfl

theorem seam_solid (opened ongoing : Bool) (left : s ≠ .wild) (right : t ≠ .wild) :
    seam synonyms opened s t ongoing = [.piece .gap] := by
  cases s with
  | wild => contradiction
  | _ =>
    cases t with
    | wild => contradiction
    | _ => rfl

theorem nonempty_of_follows {blanks : List Blank} (follows : MayFollow s blanks t) (left : s ≠ .wild)
    (right : t ≠ .wild) : blankText blanks ≠ [] := by
  rw [blankText, ne_eq, List.map_eq_nil_iff]
  cases s with
  | wild => contradiction
  | _ =>
    cases t with
    | wild => contradiction
    | _ => exact follows

theorem solid_of_follows_wild {blanks : List Blank} (follows : MayFollow .wild blanks t) :
    t ≠ .wild := by
  rintro rfl
  exact follows

/-- What an asterisk becomes between two blocks, of which each may be a group. -/
def joint (k k' : Bool) : List Char :=
  (if k then [] else edge) ++ (capture ++ if k' then [] else edge)

/-- What an asterisk becomes depends only on whether there are groups on both sides. -/
theorem between_eq {k k' : Bool} {c d : Char} (left : c = ')' ↔ k = true)
    (right : d = '(' ↔ k' = true) (plain : d ≠ '\\') : between c d = joint k k' := by
  simp [between, joint, left, right, plain]

theorem Block.marks {k : Bool} {chars : List Char} (block : Block k chars) (rest : List Char) :
    Pattern.marks (chars ++ rest) =
      (solidMarks chars ++ (Pattern.marks rest).1, (Pattern.marks rest).2) :=
  marks_solid rest fun c member => (block.solid c member).1

/-- What comes before the rest of the marks of a block with blanks before it. -/
theorem Block.expandInner {k : Bool} {chars blanks : List Char} (block : Block k chars)
    (blank : ∀ c ∈ blanks, isBlank c = true) (c : Char) (rest : List Char) :
    Pattern.expandInner true (⟨[], c⟩ :: (Pattern.marks (blanks ++ (chars ++ rest))).1) =
      c :: (blanks ++ Pattern.expandInner true (solidMarks chars ++ (Pattern.marks rest).1)) := by
  obtain ⟨x, xs, rfl, _⟩ := block.first
  obtain ⟨solid, other⟩ := block.solid x List.mem_cons_self
  have later : ∀ c ∈ xs, isBlank c = false := fun c member =>
    (block.solid c (List.mem_cons_of_mem x member)).1
  rw [List.cons_append, marks_gap _ blank solid, expandInner_next c _ other, marks_solid rest later]
  rfl

/-- The gaps around a block are widened apart from each other. -/
theorem Block.widenGaps {k : Bool} {chars : List Char} (block : Block k chars)
    (before rest : List Char) : Pattern.widenGaps (before ++ (chars ++ rest)) =
      Pattern.widenGaps before ++ (chars ++ Pattern.widenGaps rest) := by
  have solid : ∀ c ∈ chars, isBlank c = false := fun c member => (block.solid c member).1
  obtain ⟨x, xs, shape, _⟩ := block.first
  have first : isBlank x = false := solid x (by simp [shape])
  rw [← widenGaps_append rest solid, shape, List.cons_append, widenGaps_split before _ first]

theorem expandInner_wild_end (c : Char) (blanks : List Blank) :
    expandInner true (⟨[], c⟩ :: (marks (trail (Symbol.resolved synonyms) [(blanks, .wild)])).1) =
      c :: (blankText blanks ++ ['*']) := by
  have asterisk : isBlank '*' = false := by decide
  rw [trail_wild, marks_gap _ blankText_blank asterisk]
  rfl

/-- An asterisk between two blocks becomes the joint between them. -/
theorem expandInner_wild_block {k k' : Bool} {c : Char} {blanks blanks' : List Blank}
    {rest : List (List Blank × Symbol)} (ends : c = ')' ↔ k = true)
    (block : Block k' (t.resolved synonyms)) :
    expandInner true (⟨[], c⟩ ::
        (marks (trail (Symbol.resolved synonyms) ((blanks, .wild) :: (blanks', t) :: rest))).1) =
      c :: (joint k k' ++ expandInner true (solidMarks (t.resolved synonyms) ++
        (marks (trail (Symbol.resolved synonyms) rest)).1)) := by
  have asterisk : isBlank '*' = false := by decide
  obtain ⟨x, xs, shape, _, plain, begins⟩ := block.first
  obtain ⟨solid, _⟩ := block.solid x (by simp [shape])
  have later : ∀ c ∈ xs, isBlank c = false := fun c member =>
    (block.solid c (by simp [shape, member])).1
  have marked : (marks (trail (Symbol.resolved synonyms) ((blanks, .wild) :: (blanks', t) :: rest))).1 =
      ⟨blankText blanks, '*'⟩ :: ⟨blankText blanks', x⟩ ::
        (solidMarks xs ++ (marks (trail (Symbol.resolved synonyms) rest)).1) := by
    rw [trail_wild, trail_cons, shape, List.cons_append, marks_gap _ blankText_blank asterisk,
      marks_gap _ blankText_blank solid, marks_solid _ later]
  rw [marked, expandInner, if_pos rfl, between_eq ends begins plain, expandInner_true, shape]
  rfl

/-! What symbols become, as a text. -/

theorem bitText_wild_end (opened : Bool) (solid : s ≠ .wild) (blanks : List Blank) :
    bitText (bitsFrom synonyms opened s [(blanks, .wild)]) =
      bitText (s.bits synonyms) ++ (edge ++ capture) := by
  rw [bitsFrom, seam_before_wild _ _ solid]
  simp [bitsFrom, Symbol.bits, Bit.text, Piece.text]

theorem bitText_wild (opened : Bool) (left : s ≠ .wild) (right : t ≠ .wild)
    (blanks blanks' : List Blank) (rest : List (List Blank × Symbol)) :
    bitText (bitsFrom synonyms opened s ((blanks, .wild) :: (blanks', t) :: rest)) =
      bitText (s.bits synonyms) ++ (joint (s.isKnown synonyms) (t.isKnown synonyms) ++
        bitText (bitsFrom synonyms true t rest)) := by
  rw [bitsFrom, seam_before_wild _ _ left, bitsFrom, seam_after_wild _ _ right]
  cases s.isKnown synonyms <;> cases t.isKnown synonyms <;>
    simp [joint, Symbol.bits, Bit.text, Piece.text]

theorem bitText_solid (opened : Bool) (left : s ≠ .wild) (right : t ≠ .wild)
    (blanks : List Blank) (rest : List (List Blank × Symbol)) :
    bitText (bitsFrom synonyms opened s ((blanks, t) :: rest)) =
      bitText (s.bits synonyms) ++ (gap ++ bitText (bitsFrom synonyms true t rest)) := by
  rw [bitsFrom, seam_solid _ _ left right]
  simp [Bit.text, Piece.text]

theorem widenGaps_joint (k k' : Bool) : widenGaps (joint k k') = joint k k' := by
  cases k <;> cases k' <;> decide

/-- A symbol keeps its own text, whatever is before it and after it. -/
theorem widenGaps_symbol (fit : ∀ x ∈ synonyms, x.Fit) (solid : s ≠ .wild) {cs : List Char} {c : Char}
    (shape : s.resolved synonyms = cs ++ [c]) (before rest : List Char) :
    widenGaps (before ++ cs ++ c :: rest) =
      widenGaps before ++ (bitText (s.bits synonyms) ++ widenGaps rest) := by
  rw [← resolved_eq solid, ← (block_resolved fit solid).widenGaps, shape]
  simp

/-- What the symbols from one on become that is not an asterisk, whatever stands before it. By induction
on the number of symbols, as two are left behind at once where the first of them is an asterisk. -/
theorem widenGaps_expand (fit : ∀ x ∈ synonyms, x.Fit) {more : List (List Blank × Symbol)}
    (before : List Char) (opened : Bool) (solid : s ≠ .wild) (chained : Chained s more) :
    widenGaps (expandLast (before ++ expandInner true (solidMarks (s.resolved synonyms) ++
        (marks (trail (Symbol.resolved synonyms) more)).1))) =
      widenGaps before ++ bitText (bitsFrom synonyms opened s more) := by
  obtain ⟨n, short⟩ : ∃ n, more.length ≤ n := ⟨_, Nat.le_refl _⟩
  induction n using Nat.strongRecOn generalizing more before opened s with
  | ind n ih =>
    have block := block_resolved fit solid
    obtain ⟨cs, c, shape, closed, ends⟩ := block.last
    obtain ⟨plain, other⟩ := block.solid c (by simp [shape])
    have unstarred : ∀ x ∈ cs ++ [c], x ≠ '*' := fun x member => (block.solid x (shape ▸ member)).2
    have written := widenGaps_symbol fit solid shape before
    rw [shape, expandInner_solid c _ unstarred, ← List.append_assoc]
    cases more with
    | nil =>
      change widenGaps (expandLast (before ++ cs ++ [c])) = _
      rw [expandLast_solid _ plain other, written, bitsFrom]
      simp [widenGaps, runs]
    | cons m rest =>
      obtain ⟨blanks, t⟩ := m
      obtain ⟨follows, chained⟩ := chained
      by_cases star : t = .wild
      · subst star
        cases rest with
        | nil =>
          have ending := widenGaps_capture []
          rw [List.append_nil] at ending
          rw [expandInner_wild_end, expandLast_wild _ blankText_blank plain closed, written,
            widenGaps_edge, ending, bitText_wild_end opened solid]
          rfl
        | cons m rest =>
          obtain ⟨blanks', t⟩ := m
          obtain ⟨follows', chained⟩ := chained
          have next := solid_of_follows_wild follows'
          have later := ih rest.length (by simp at short; omega) (before ++ cs ++ c ::
            joint (s.isKnown synonyms) (t.isKnown synonyms)) true next chained (Nat.le_refl _)
          rw [List.append_assoc, List.cons_append] at later
          rw [expandInner_wild_block ends (block_resolved fit next), later, written, widenGaps_joint,
            bitText_wild opened solid next, List.append_assoc, List.append_assoc]
      · have later := ih rest.length (by simp at short; omega)
          (before ++ cs ++ c :: blankText blanks) true star chained (Nat.le_refl _)
        rw [List.append_assoc, List.cons_append] at later
        rw [trail_cons, (block_resolved fit star).expandInner blankText_blank, later, written,
          widenGaps_blanks (nonempty_of_follows follows solid star) blankText_blank,
          bitText_solid opened solid star, List.append_assoc, List.append_assoc]

/-! Whole patterns. -/

theorem resolved_solid (fit : ∀ x ∈ synonyms, x.Fit) (s : Symbol) : ∃ c cs,
    s.resolved synonyms = c :: cs ∧ ∀ x ∈ c :: cs, isBlank x = false := by
  by_cases star : s = .wild
  · have asterisk : isBlank '*' = false := by decide
    exact ⟨'*', [], by rw [star]; rfl, by simpa using asterisk⟩
  · have block := block_resolved fit star
    obtain ⟨c, cs, shape, _⟩ := block.first
    exact ⟨c, cs, shape, fun x member => (block.solid x (shape ▸ member)).1⟩

theorem marks_trail (fit : ∀ x ∈ synonyms, x.Fit) (more : List (List Blank × Symbol)) :
    (marks (trail (Symbol.resolved synonyms) more)).2 = [] := by
  induction more with
  | nil => rfl
  | cons m rest ih =>
    obtain ⟨c, cs, shape, solid⟩ := resolved_solid fit m.2
    obtain ⟨first, later⟩ := List.forall_mem_cons.mp solid
    rw [trail_cons, shape, List.cons_append, marks_gap _ blankText_blank first, marks_solid _ later, ih]

theorem expandInner_begins (m : Mark) (ms : List Mark) :
    ∃ more, expandInner true (m :: ms) = m.char :: more := by
  match ms with
  | [] => exact ⟨_, rfl⟩
  | [b] => exact ⟨_, rfl⟩
  | b :: c :: rest =>
    by_cases star : b.char = '*' <;> simp [expandInner, Mark.textFrom, star]

theorem solidMarks_cons {chars cs : List Char} {c : Char} (shape : chars = c :: cs) (ms : List Mark) :
    solidMarks chars ++ ms = ⟨[], c⟩ :: (solidMarks cs ++ ms) := by
  rw [shape]
  rfl

/-- A pattern that begins with an asterisk, and with more than that. -/
theorem expand_wild (fit : ∀ x ∈ synonyms, x.Fit) {blanks : List Blank}
    {rest : List (List Blank × Symbol)} (solid : t ≠ .wild) (chained : Chained t rest) :
    widenGaps (expand ('*' :: trail (Symbol.resolved synonyms) ((blanks, t) :: rest))) =
      bitText (bitsFrom synonyms false .wild ((blanks, t) :: rest)) := by
  have block := block_resolved fit solid
  obtain ⟨c, cs, shape, open_, plain, _⟩ := block.first
  obtain ⟨firm, other⟩ := block.solid c (by simp [shape])
  have later := widenGaps_expand fit (capture ++ edge) true solid chained
  have inner := block.expandInner (@blankText_blank blanks) '*' (trail (Symbol.resolved synonyms) rest)
  obtain ⟨more, begins⟩ := expandInner_begins ⟨[], c⟩
    (solidMarks cs ++ (marks (trail (Symbol.resolved synonyms) rest)).1)
  have marked : marks ('*' :: trail (Symbol.resolved synonyms) ((blanks, t) :: rest)) =
      (⟨[], '*'⟩ :: (marks (trail (Symbol.resolved synonyms) ((blanks, t) :: rest))).1, _) :=
    marks_append [] _ (by decide)
  rw [expand, marked]
  dsimp only
  rw [if_neg (by simp [trail_cons, shape, marks_gap _ blankText_blank firm]), marks_trail fit,
    List.append_nil, expandInner_false, trail_cons, inner]
  rw [solidMarks_cons shape, begins] at later ⊢
  rw [List.nil_append, expandFirst_wild more blankText_blank firm open_ plain, ← List.append_assoc,
    later]
  have front : widenGaps (capture ++ edge) = capture ++ edge := by decide
  simp [front, bitsFrom, seam, Symbol.bits, Bit.text, Piece.text]

/-- A pattern that does not begin with an asterisk. -/
theorem expand_solid (fit : ∀ x ∈ synonyms, x.Fit) {more : List (List Blank × Symbol)}
    (solid : s ≠ .wild) (chained : Chained s more) :
    widenGaps (expand (s.resolved synonyms ++ trail (Symbol.resolved synonyms) more)) =
      bitText (bitsFrom synonyms false s more) := by
  have block := block_resolved fit solid
  obtain ⟨c, cs, shape, _⟩ := block.first
  obtain ⟨firm, other⟩ := block.solid c (by simp [shape])
  have later := widenGaps_expand fit [] false solid chained
  obtain ⟨rest, begins⟩ := expandInner_begins ⟨[], c⟩
    (solidMarks cs ++ (marks (trail (Symbol.resolved synonyms) more)).1)
  rw [solidMarks_cons shape, begins] at later
  rw [expand, block.marks, solidMarks_cons shape]
  dsimp only
  rw [if_neg (by simp [other]), marks_trail fit, List.append_nil, expandInner_false, begins,
    List.nil_append, expandFirst_solid rest firm other]
  exact later

/-- A pattern with its references resolved is expanded and widened to the text of its bits. -/
theorem expand_layout (fit : ∀ x ∈ synonyms, x.Fit) (l : Layout) :
    widenGaps (expand (l.first.resolved synonyms ++ trail (Symbol.resolved synonyms) l.more)) =
      bitText (l.bits synonyms) := by
  obtain ⟨first, more, chained⟩ := l
  by_cases star : first = .wild
  · subst star
    match more, chained with
    | [], _ =>
      change widenGaps (expand ['*']) = bitText [.piece .capture]
      decide
    | (blanks, t) :: rest, ⟨follows, chained⟩ =>
      exact expand_wild fit (solid_of_follows_wild follows) chained
  · exact expand_solid fit star chained

/-- A pattern of words, references and asterisks as a regular expression, symbol by symbol. -/
theorem compile_layout (fit : ∀ x ∈ synonyms, x.Fit) (mark : Option Nat) (l : Layout) :
    compile synonyms (String.ofList (withMark mark l.text)) =
      ⟨String.ofList (bitText (l.bits synonyms)), mark.isSome⟩ := by
  obtain ⟨c, rest, shape, dollar, space⟩ : ∃ c rest, l.text = c :: rest ∧ c ≠ '$' ∧ c ≠ ' ' := by
    rw [Layout.text]
    cases l.first with
    | word w =>
      obtain ⟨letter, more, begins⟩ := w.text_first
      exact ⟨letter, _, by rw [Symbol.text, begins, List.cons_append],
        letter_ne letter (by decide), letter_ne letter (by decide)⟩
    | reference w => exact ⟨'@', _, rfl, by decide, by decide⟩
    | wild => exact ⟨'*', _, rfl, by decide, by decide⟩
  have unmark : unmarked (withMark mark l.text) = l.text := by
    cases mark with
    | none =>
      rw [withMark, shape, unmarked]
      exact fun _ same => dollar (List.cons.inj same).1
    | some n =>
      have spaces : ∀ c ∈ List.replicate n ' ', (c == ' ') = true := by simp
      rw [withMark, unmarked, List.dropWhile_append_of_pos spaces, shape]
      simp [space]
  have kept : ((withMark mark l.text).head? == some '$') = mark.isSome := by
    cases mark with
    | none => simp [withMark, shape, dollar]
    | some n => rfl
  simp only [compile, String.toList_ofList, unmark, kept]
  rw [Layout.text, expandReferences_trail l.chained, expand_layout fit]

end Colloquy.Pattern
