import Colloquy.Pattern.Compile
import Colloquy.Proofs.Text.Character

/-! Phrases, the patterns that have any text before, between and after them, and the pieces of the
expressions that these become. -/

namespace Colloquy.Pattern

open Text

/-! Phrases. -/

abbrev Letter := { c : Char // isWord c = true }

abbrev Blank := { c : Char // isBlank c = true }

structure Word where
  letters : List Letter
  nonempty : letters ≠ []

/-- Blanks between two words. -/
structure Gap where
  blanks : List Blank
  nonempty : blanks ≠ []

/-- Words with gaps between them. -/
structure Phrase where
  first : Word
  more : List (Gap × Word)

def Word.text (w : Word) : List Char := w.letters.map Subtype.val

def Gap.text (g : Gap) : List Char := g.blanks.map Subtype.val

/-- The words that follow others, with the gaps before them. -/
def spaced (more : List (Gap × Word)) : List Char := more.flatMap fun m => m.1.text ++ m.2.text

def Phrase.text (p : Phrase) : List Char := p.first.text ++ spaced p.more

def Phrase.words (p : Phrase) : List Word := p.first :: p.more.map Prod.snd

/-- A pattern of phrases, with any text before, between and after them. -/
def ofPhrases : List Phrase → List Char
  | [] => ['*']
  | p :: rest => '*' :: ' ' :: (p.text ++ ' ' :: ofPhrases rest)

/-! Letters are neither blanks nor signs. -/

theorem letter_ne (l : Letter) {c : Char} (other : isWord c = false) : l.val ≠ c := by
  intro same
  have letter := l.property
  rw [same, other] at letter
  contradiction

theorem blank_ne (b : Blank) {c : Char} (other : isBlank c = false) : b.val ≠ c := by
  intro same
  have blank := b.property
  rw [same, other] at blank
  contradiction

/-! Phrases begin and end with letters. -/

theorem Word.text_first (w : Word) : ∃ (l : Letter) (more : List Letter),
    w.text = l.val :: more.map Subtype.val := by
  obtain ⟨l, more, shape⟩ := List.exists_cons_of_ne_nil w.nonempty
  exact ⟨l, more, by rw [Word.text, shape, List.map_cons]⟩

theorem Word.text_last (w : Word) : ∃ (before : List Char) (l : Letter),
    w.text = before ++ [l.val] := by
  rcases List.eq_nil_or_concat w.letters with empty | ⟨before, l, shape⟩
  · exact absurd empty w.nonempty
  · refine ⟨before.map Subtype.val, l, ?_⟩
    rw [Word.text, shape, List.map_concat, List.concat_eq_append]

/-- A phrase begins with a letter. -/
theorem Phrase.text_first (p : Phrase) : ∃ (l : Letter) (more : List Char),
    p.text = l.val :: more := by
  obtain ⟨l, more, shape⟩ := p.first.text_first
  exact ⟨l, more.map Subtype.val ++ spaced p.more, by rw [Phrase.text, shape, List.cons_append]⟩

theorem Phrase.text_last (p : Phrase) : ∃ (before : List Char) (l : Letter),
    p.text = before ++ [l.val] := by
  rcases List.eq_nil_or_concat p.more with alone | ⟨others, ⟨g, w⟩, shape⟩
  · obtain ⟨before, l, shape⟩ := p.first.text_last
    exact ⟨before, l, by simp [Phrase.text, alone, spaced, shape]⟩
  · obtain ⟨before, l, last⟩ := w.text_last
    exact ⟨p.first.text ++ (spaced others ++ (g.text ++ before)), l,
      by simp [Phrase.text, shape, spaced, last]⟩

theorem Gap.text_blank (g : Gap) : ∀ c ∈ g.text, isBlank c = true := by
  intro c member
  obtain ⟨b, _, rfl⟩ := List.mem_map.mp member
  exact b.property

theorem Gap.text_ne_nil (g : Gap) : g.text ≠ [] := by
  rw [Gap.text, ne_eq, List.map_eq_nil_iff]
  exact g.nonempty

theorem exists_gap {chars : List Char} (nonempty : chars ≠ [])
    (blank : ∀ c ∈ chars, isBlank c = true) : ∃ g : Gap, g.text = chars := by
  have blanks : chars.pmap Subtype.mk blank ≠ [] := by simpa using nonempty
  refine ⟨⟨chars.pmap Subtype.mk blank, blanks⟩, ?_⟩
  rw [Gap.text, List.map_pmap]
  simp

theorem not_mem_text (p : Phrase) {sign : Char} (notWord : isWord sign = false)
    (notBlank : isBlank sign = false) : sign ∉ p.text := by
  have inWord (w : Word) : sign ∉ w.text := by
    intro member
    obtain ⟨l, _, same⟩ := List.mem_map.mp member
    exact letter_ne l notWord same
  have inGap (g : Gap) : sign ∉ g.text := by
    intro member
    obtain ⟨b, _, same⟩ := List.mem_map.mp member
    exact blank_ne b notBlank same
  simp [Phrase.text, spaced, inWord, inGap]

/-- A pattern of phrases has letters, blanks and asterisks only. -/
theorem not_mem_ofPhrases {sign : Char} (notWord : isWord sign = false)
    (notBlank : isBlank sign = false) (notStar : sign ≠ '*') (phrases : List Phrase) :
    sign ∉ ofPhrases phrases := by
  have notSpace : sign ≠ ' ' := by
    rintro rfl
    contradiction
  induction phrases with
  | nil => simp [ofPhrases, notStar]
  | cons p rest ih => simp [ofPhrases, not_mem_text p notWord notBlank, notStar, notSpace, ih]

/-! The pieces of an expression. -/

/-- A piece of an expression: a capture, a word edge, a gap, or a letter that stands for itself. -/
inductive Piece where
  | capture
  | edge
  | gap
  | letter (l : Letter)

def Piece.text : Piece → List Char
  | .capture => Pattern.capture
  | .edge => Pattern.edge
  | .gap => Pattern.gap
  | .letter l => [l.val]

def written (ps : List Piece) : List Char := ps.flatMap Piece.text

def Word.pieces (w : Word) : List Piece := w.letters.map Piece.letter

def spacedPieces (more : List (Gap × Word)) : List Piece :=
  more.flatMap fun m => .gap :: m.2.pieces

def Phrase.pieces (p : Phrase) : List Piece := p.first.pieces ++ spacedPieces p.more

/-- A capture before, between and after phrases, which stand between word edges. -/
def piecesOf : List Phrase → List Piece
  | [] => [.capture]
  | p :: rest => .capture :: .edge :: (p.pieces ++ .edge :: piecesOf rest)

@[simp] theorem written_nil : written [] = [] := rfl

@[simp] theorem written_cons (p : Piece) (ps : List Piece) :
    written (p :: ps) = p.text ++ written ps := rfl

@[simp] theorem written_append (ps qs : List Piece) :
    written (ps ++ qs) = written ps ++ written qs := List.flatMap_append

theorem written_word (w : Word) : written w.pieces = w.text := by
  rw [written, Word.pieces, List.flatMap_map, Word.text, List.map_eq_flatMap]
  rfl

end Colloquy.Pattern
