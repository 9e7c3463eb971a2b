import Colloquy.Proofs.Pattern.Phrase
import Colloquy.Proofs.Text.Runs

/-! How a pattern of phrases is made an expression. -/

namespace Colloquy.Pattern

open Text

/-- Without a reference a pattern stays as it is. -/
theorem expandReferences_of_not_mem (synonyms : List Synonym) {pattern : List Char}
    (unsigned : '@' ∉ pattern) : expandReferences synonyms pattern = pattern := by
  have unreferred (chars : List Char) (without : '@' ∉ chars) : reference? chars = none := by
    induction chars with
    | nil => rfl
    | cons c rest ih =>
      obtain ⟨other, without⟩ := List.ne_and_not_mem_of_not_mem_cons without
      rw [reference?, ih without]
      · rfl
      · exact fun same => absurd same.symm other
      · exact fun _ _ same => absurd same.symm other
  calc
    expandReferences synonyms pattern = unruns (runs isBlank pattern) := by
      refine List.flatMap_congr fun r member => ?_
      have inside : '@' ∉ r.chars := fun sign =>
        unsigned ((chars_isInfix_of_mem_runs member).subset sign)
      split
      · rfl
      · rw [resolveRun, unreferred _ inside]
    _ = pattern := unruns_runs isBlank pattern

/-! Gaps that are made wide. -/

theorem widenGaps_cons {c : Char} (rest : List Char) (solid : isBlank c = false) :
    widenGaps (c :: rest) = c :: widenGaps rest := by
  simp only [widenGaps, runs]
  cases runs isBlank rest with
  | nil => simp [solid]
  | cons r more =>
    obtain ⟨kind, chars⟩ := r
    cases kind <;> simp [solid]

theorem widenGaps_append {chars : List Char} (rest : List Char)
    (solid : ∀ c ∈ chars, isBlank c = false) :
    widenGaps (chars ++ rest) = chars ++ widenGaps rest := by
  induction chars with
  | nil => rfl
  | cons c chars ih =>
    obtain ⟨first, others⟩ := List.forall_mem_cons.mp solid
    rw [List.cons_append, widenGaps_cons _ first, ih others, List.cons_append]

theorem widenGaps_gap (g : Gap) {c : Char} (rest : List Char) (solid : isBlank c = false) :
    widenGaps (g.text ++ c :: rest) = gap ++ widenGaps (c :: rest) := by
  obtain ⟨more, others, begins⟩ := exists_runs_cons isBlank c rest
  rw [widenGaps, runs_piece g.text_ne_nil g.text_blank (by simp [begins, solid])]
  rfl

/-! Marks. -/

theorem marks_append (before rest : List Char) {c : Char} (solid : isBlank c = false) :
    marks (before ++ c :: rest) =
      ((marks before).1 ++ ⟨(marks before).2, c⟩ :: (marks rest).1, (marks rest).2) := by
  induction before with
  | nil => simp [marks, solid]
  | cons x before ih =>
    rw [List.cons_append, marks, marks, ih]
    split
    · rcases marks before with ⟨_ | _, _⟩ <;> rfl
    · rfl

/-- The marks of a text and its last blanks are the whole of it. -/
theorem marks_text (text : List Char) :
    (marks text).1.flatMap Mark.text ++ (marks text).2 = text := by
  induction text with
  | nil => rfl
  | cons c rest ih =>
    rw [marks]
    split
    · cases marked : marks rest with
      | mk ms tail =>
        rw [marked] at ih
        cases ms <;> simpa [Mark.text] using ih
    · simpa [Mark.text] using ih

theorem char_mem_of_mem_marks {text : List Char} {m : Mark} (member : m ∈ (marks text).1) :
    m.char ∈ text := by
  rw [← marks_text text]
  exact List.mem_append_left _ (List.mem_flatMap.mpr ⟨m, member, by simp [Mark.text]⟩)

def star : Mark := ⟨[' '], '*'⟩

def Phrase.marks (p : Phrase) : List Mark := (Pattern.marks (' ' :: p.text)).1

theorem marks_text_phrase (p : Phrase) (rest : List Char) :
    marks (' ' :: (p.text ++ ' ' :: '*' :: rest)) =
      (p.marks ++ star :: (marks rest).1, (marks rest).2) := by
  obtain ⟨before, l, shape⟩ := p.text_last
  have solid := isBlank_of_isWord l.property
  have phrase : marks (' ' :: p.text ++ [' ']) = (p.marks, [' ']) := by
    rw [Phrase.marks, shape]
    have after := marks_append (' ' :: before) [' '] solid
    have alone := marks_append (' ' :: before) [] solid
    simp only [List.cons_append, List.append_assoc, List.nil_append] at after alone ⊢
    rw [after, alone]
    rfl
  have parted : ' ' :: (p.text ++ ' ' :: '*' :: rest) =
      (' ' :: p.text ++ [' ']) ++ '*' :: rest := by
    simp
  rw [parted, marks_append _ _ (by decide), phrase]
  rfl

theorem Phrase.char_ne_of_mem_marks {p : Phrase} {m : Mark} (member : m ∈ p.marks) {sign : Char}
    (notWord : isWord sign = false) (notBlank : isBlank sign = false) : m.char ≠ sign := by
  rintro rfl
  rcases List.mem_cons.mp (char_mem_of_mem_marks member) with space | inside
  · rw [space] at notBlank
    contradiction
  · exact not_mem_text p notWord notBlank inside

/-- The marks of a phrase after a blank: one for its first letter, and those of the rest. -/
theorem Phrase.marks_shape (p : Phrase) : ∃ (l : Letter) (ms : List Mark),
    p.marks = ⟨[' '], l⟩ :: ms ∧ l.val :: ms.flatMap Mark.text = p.text ∧
      ∀ m ∈ ms, m.char ≠ '*' := by
  obtain ⟨l, more, first⟩ := p.text_first
  have begun := marks_append [' '] more (isBlank_of_isWord l.property)
  have ended : (Pattern.marks (' ' :: p.text)).2 = [] := by
    obtain ⟨before, l', last⟩ := p.text_last
    rw [last]
    exact congrArg Prod.snd (marks_append (' ' :: before) [] (isBlank_of_isWord l'.property))
  have whole := marks_text more
  rw [first] at ended
  rw [(congrArg Prod.snd begun).symm.trans ended, List.append_nil] at whole
  have marked : p.marks = ⟨[' '], l⟩ :: (Pattern.marks more).1 := by
    rw [Phrase.marks, first]
    exact congrArg Prod.fst begun
  refine ⟨l, (Pattern.marks more).1, marked, by rw [whole, first], fun m member => ?_⟩
  exact Phrase.char_ne_of_mem_marks (marked ▸ List.mem_cons_of_mem _ member) (by decide) (by decide)

/-- The marks of phrases from the first letter on, and of the asterisks after them. -/
def marksOf (phrases : List Phrase) : List Mark := phrases.flatMap fun p => p.marks ++ [star]

/-- The marks of a pattern of phrases are those of the phrases and the asterisks between them. -/
theorem marks_ofPhrases (phrases : List Phrase) :
    marks (ofPhrases phrases) = (⟨[], '*'⟩ :: marksOf phrases, []) := by
  have starred (text : List Char) :
      marks ('*' :: text) = (⟨[], '*'⟩ :: (marks text).1, (marks text).2) :=
    marks_append [] text (by decide)
  induction phrases with
  | nil => rfl
  | cons p rest ih =>
    obtain ⟨more, opens⟩ : ∃ more, ofPhrases rest = '*' :: more := by cases rest <;> exact ⟨_, rfl⟩
    rw [opens, starred, Prod.mk.injEq, List.cons.injEq] at ih
    rw [ofPhrases, opens, starred, marks_text_phrase, ih.1.2, ih.2]
    simp [marksOf]

/-! Asterisks made captures. -/

theorem expandInner_cons {bare : Bool} {a b : Mark} (rest : List Mark) (other : b.char ≠ '*') :
    expandInner bare (a :: b :: rest) = a.textFrom bare ++ expandInner false (b :: rest) := by
  cases rest with
  | nil => rfl
  | cons c rest => rw [expandInner, if_neg other]

theorem expandInner_end {bare : Bool} {a : Mark} {ms : List Mark}
    (plain : ∀ m ∈ ms, m.char ≠ '*') :
    expandInner bare (a :: (ms ++ [star])) =
      a.textFrom bare ++ ms.flatMap Mark.text ++ star.text := by
  induction ms generalizing bare a with
  | nil => simp [expandInner]
  | cons b ms ih =>
    obtain ⟨first, plain⟩ := List.forall_mem_cons.mp plain
    rw [List.cons_append, expandInner_cons _ first, ih plain]
    simp [Mark.textFrom]

def wild : List Char := edge ++ (capture ++ edge)

/-- An asterisk between a closed run of marks and a letter is expanded once the mark before it comes
first; the others pass one by one. -/
theorem expandInner_wild {bare : Bool} {a c : Mark} {ms : List Mark} (rest : List Mark)
    (plain : ∀ m ∈ ms, m.char ≠ '*') (unclosed : ∀ m ∈ a :: ms, m.char ≠ ')')
    (letter : isWord c.char = true) :
    expandInner bare (a :: (ms ++ star :: c :: rest)) =
      a.textFrom bare ++ ms.flatMap Mark.text ++ (wild ++ expandInner true (c :: rest)) := by
  induction ms generalizing bare a with
  | nil =>
    have first : a.char ≠ ')' := unclosed a List.mem_cons_self
    have unopened : ¬(c.char = '(' ∨ c.char = '\\') := by
      rintro (same | same) <;> exact absurd letter (by rw [same]; decide)
    simp [expandInner, star, between, wild, first, unopened]
  | cons b ms ih =>
    obtain ⟨first, plain⟩ := List.forall_mem_cons.mp plain
    rw [List.cons_append, expandInner_cons _ first,
      ih plain fun m member => unclosed m (List.mem_cons_of_mem _ member)]
    simp [Mark.textFrom]

def joined : Phrase → List Phrase → List Char
  | p, [] => p.text
  | p, q :: rest => p.text ++ (wild ++ joined q rest)

/-- Inside a pattern of phrases every asterisk between two of them is expanded. -/
theorem expandInner_marksOf {bare : Bool} (p : Phrase) (rest : List Phrase) :
    expandInner bare (marksOf (p :: rest)) =
      (if bare then [] else [' ']) ++ joined p rest ++ star.text := by
  induction rest generalizing bare p with
  | nil =>
    obtain ⟨l, ms, shape, text, plain⟩ := p.marks_shape
    have marked : marksOf [p] = ⟨[' '], l⟩ :: (ms ++ [star]) := by simp [marksOf, shape]
    rw [marked, expandInner_end plain, joined, ← text]
    cases bare <;> simp [Mark.textFrom, Mark.text]
  | cons q rest ih =>
    obtain ⟨l, ms, shape, text, plain⟩ := p.marks_shape
    have unclosed : ∀ m ∈ (⟨[' '], l⟩ : Mark) :: ms, m.char ≠ ')' := fun m member =>
      Phrase.char_ne_of_mem_marks (shape ▸ member) (by decide) (by decide)
    obtain ⟨l', ms', shape', _⟩ := q.marks_shape
    have next : marksOf (q :: rest) = ⟨[' '], l'⟩ :: (ms' ++ star :: marksOf rest) := by
      simp [marksOf, shape']
    have marked : marksOf (p :: q :: rest) = ⟨[' '], l⟩ :: (ms ++ star :: marksOf (q :: rest)) := by
      simp [marksOf, shape]
    rw [marked, next, expandInner_wild _ plain unclosed l'.property, ← next, ih, joined, ← text]
    cases bare <;> simp [Mark.textFrom, Mark.text]

theorem joined_first (p : Phrase) (rest : List Phrase) : ∃ (l : Letter) (more : List Char),
    joined p rest = l.val :: more := by
  obtain ⟨l, more, first⟩ := p.text_first
  cases rest with
  | nil => exact ⟨l, more, first⟩
  | cons q rest =>
    exact ⟨l, more ++ (wild ++ joined q rest), by rw [joined, first, List.cons_append]⟩

theorem joined_last (p : Phrase) (rest : List Phrase) : ∃ (before : List Char) (l : Letter),
    joined p rest = before ++ [l.val] := by
  induction rest generalizing p with
  | nil => exact p.text_last
  | cons q rest ih =>
    obtain ⟨before, l, last⟩ := ih q
    exact ⟨p.text ++ (wild ++ before), l, by simp [joined, last]⟩

theorem expandFirst_letter (l : Letter) (more : List Char) :
    expandFirst ('*' :: ' ' :: l.val :: more) = capture ++ (edge ++ l.val :: more) := by
  have unclosed : ¬(l.val = ')' ∨ l.val = '\\') := by
    rintro (same | same) <;> exact letter_ne l (by decide) same
  have asterisk : isBlank '*' = false := by decide
  have space : isBlank ' ' = true := by decide
  simp [expandFirst, asterisk, space, isBlank_of_isWord l.property, unclosed]

theorem expandLast_letter (before : List Char) (l : Letter) :
    expandLast (before ++ l.val :: star.text) = before ++ l.val :: (edge ++ capture) := by
  have asterisk : isBlank '*' = false := by decide
  have space : isBlank ' ' = true := by decide
  simp [expandLast, star, Mark.text, asterisk, space, isBlank_of_isWord l.property,
    letter_ne l (c := '(') (by decide)]

/-- A pattern of phrases expanded: captures between word edges. -/
theorem expand_ofPhrases (p : Phrase) (rest : List Phrase) :
    expand (ofPhrases (p :: rest)) = capture ++ (edge ++ (joined p rest ++ (edge ++ capture))) := by
  obtain ⟨l, ms, shape, _⟩ := p.marks_shape
  have marked : marksOf (p :: rest) = ⟨[' '], l⟩ :: (ms ++ star :: marksOf rest) := by
    simp [marksOf, shape]
  have inner : expandInner false (⟨[], '*'⟩ :: marksOf (p :: rest)) =
      '*' :: ' ' :: (joined p rest ++ star.text) := by
    rw [marked, expandInner_cons _ (letter_ne l (by decide)), ← marked, expandInner_marksOf]
    rfl
  have front : expandFirst ('*' :: ' ' :: (joined p rest ++ star.text)) =
      capture ++ (edge ++ (joined p rest ++ star.text)) := by
    obtain ⟨first, more, begun⟩ := joined_first p rest
    rw [begun, List.cons_append, expandFirst_letter]
  have back : expandLast (capture ++ (edge ++ (joined p rest ++ star.text))) =
      capture ++ (edge ++ (joined p rest ++ (edge ++ capture))) := by
    obtain ⟨before, last, ended⟩ := joined_last p rest
    have := expandLast_letter (capture ++ (edge ++ before)) last
    simpa [ended] using this
  rw [expand, marks_ofPhrases]
  dsimp only
  rw [if_neg (by simp [marked]), List.append_nil, inner, front, back]

/-! All gaps of a pattern. -/

theorem widenGaps_word (w : Word) (rest : List Char) :
    widenGaps (w.text ++ rest) = w.text ++ widenGaps rest := by
  refine widenGaps_append rest fun c member => ?_
  obtain ⟨l, _, rfl⟩ := List.mem_map.mp member
  exact isBlank_of_isWord l.property

theorem widenGaps_phrase (p : Phrase) (rest : List Char) :
    widenGaps (p.text ++ rest) = written p.pieces ++ widenGaps rest := by
  have later (more : List (Gap × Word)) :
      widenGaps (spaced more ++ rest) = written (spacedPieces more) ++ widenGaps rest := by
    induction more with
    | nil => rfl
    | cons m more ih =>
      obtain ⟨l, others, first⟩ := m.2.text_first
      have solid := isBlank_of_isWord l.property
      calc
        widenGaps (spaced (m :: more) ++ rest)
          = widenGaps (m.1.text ++ (m.2.text ++ (spaced more ++ rest))) := by simp [spaced]
        _ = gap ++ widenGaps (m.2.text ++ (spaced more ++ rest)) := by
          rw [first, List.cons_append, widenGaps_gap _ _ solid]
        _ = gap ++ (m.2.text ++ (written (spacedPieces more) ++ widenGaps rest)) := by
          rw [widenGaps_word, ih]
        _ = written (spacedPieces (m :: more)) ++ widenGaps rest := by
          simp [spacedPieces, Piece.text, written_word]
  rw [Phrase.text, List.append_assoc, widenGaps_word, later, Phrase.pieces, written_append,
    written_word, List.append_assoc]

theorem widenGaps_edge (rest : List Char) : widenGaps (edge ++ rest) = edge ++ widenGaps rest := by
  have solid : edge.all (fun c => !isBlank c) = true := by decide
  exact widenGaps_append rest (by simpa using solid)

theorem widenGaps_capture (rest : List Char) :
    widenGaps (capture ++ rest) = capture ++ widenGaps rest := by
  have solid : capture.all (fun c => !isBlank c) = true := by decide
  exact widenGaps_append rest (by simpa using solid)

/-- With its gaps widened, an expanded pattern of phrases is written as their pieces. -/
theorem widenGaps_joined (p : Phrase) (rest : List Phrase) :
    widenGaps (joined p rest ++ (edge ++ capture)) =
      written (p.pieces ++ .edge :: piecesOf rest) := by
  induction rest generalizing p with
  | nil =>
    rw [joined, widenGaps_phrase, widenGaps_edge]
    simp only [piecesOf, written_append, written_cons, written_nil, Piece.text, List.append_nil]
    rfl
  | cons q rest ih =>
    simp only [joined, wild, List.append_assoc]
    rw [widenGaps_phrase, widenGaps_edge, widenGaps_capture, widenGaps_edge, ih]
    simp only [piecesOf, written_append, written_cons, Piece.text]

/-- A pattern of phrases as a regular expression, piece by piece. -/
theorem compile_ofPhrases (synonyms : List Synonym) (phrases : List Phrase) :
    compile synonyms (String.ofList (ofPhrases phrases)) =
      ⟨String.ofList (written (piecesOf phrases)), false⟩ := by
  have plain : unmarked (ofPhrases phrases) = ofPhrases phrases ∧
      ((ofPhrases phrases).head? == some '$') = false := by
    cases phrases <;> exact ⟨rfl, rfl⟩
  have unsigned : '@' ∉ ofPhrases phrases :=
    not_mem_ofPhrases (by decide) (by decide) (by decide) phrases
  have resolved := expandReferences_of_not_mem synonyms unsigned
  have source : widenGaps (expand (ofPhrases phrases)) = written (piecesOf phrases) := by
    cases phrases with
    | nil => decide
    | cons p rest =>
      rw [expand_ofPhrases, widenGaps_capture, widenGaps_edge, widenGaps_joined]
      rfl
  simp only [compile, String.toList_ofList, plain, resolved, source]

end Colloquy.Pattern
