import Colloquy.Proofs.Pattern.Placement
import Colloquy.Proofs.Regex.Capture
import Colloquy.Proofs.Regex.Pieces

/-! How an expression of phrases is matched. -/

namespace Colloquy.Regex

open Text Pattern

variable {k : Next} {captures : List (Nat × Span)} {before after text : List Char} {r : Progress}
  {number i : Nat} {ps : List Piece}

/-! One part after the other. -/

/-- A sequence matches one part after the other. -/
theorem matchThen_sequence (parts : List Part) (k : Next) :
    matchThen (sequence parts) k = parts.foldr (fun part k => matchThen part.regex k) k := by
  induction parts with
  | nil =>
    funext p
    rw [sequence, matchThen]
    rfl
  | cons part rest ih =>
    cases rest with
    | nil => rfl
    | cons next rest =>
      change matchThen (.seq part.regex (sequence (next :: rest))) k = _
      funext p
      rw [matchThen, ih]
      rfl

def follow (number : Nat) (ps : List Piece) : Next := matchThen (sequence (partsOf number ps)) some

theorem follow_nil : follow number [] = some := by
  rw [follow, matchThen_sequence]
  rfl

theorem follow_cons (piece : Piece) : follow number (piece :: ps) =
    (pieceParts number piece).foldr (fun part k => matchThen part.regex k)
      (follow (number + pieceGroups piece) ps) := by
  simp only [follow, matchThen_sequence, partsOf, List.foldr_append]

theorem follow_capture :
    follow number (.capture :: ps) = captureThen number (follow (number + 1) ps) :=
  follow_cons .capture

/-! Letters and word edges. -/

theorem follow_letter (l : Letter) :
    follow number (.letter l :: ps) ⟨⟨before, after⟩, captures⟩ = some r ↔
      ∃ left, after = l.val :: left ∧
        follow number ps ⟨⟨l.val :: before, left⟩, captures⟩ = some r := by
  rw [follow_cons]
  change matchThen (.one (.one l.val.toNat false)) (follow number ps) _ = _ ↔ _
  cases after with
  | nil => simp [matchThen]
  | cons c left =>
    have accepts : (CharTest.one l.val.toNat false).accepts c = true ↔ c = l.val := by
      simp [CharTest.accepts, SetItem.has, Char.toNat_inj]
    rw [matchThen]
    simp only [accepts, List.cons.injEq]
    constructor
    · intro found
      split at found
      · next same => exact ⟨left, ⟨same, rfl⟩, same ▸ found⟩
      · contradiction
    · rintro ⟨_, ⟨rfl, rfl⟩, found⟩
      rwa [if_pos rfl]

theorem follow_letters (letters : List Letter) :
    follow number (letters.map .letter ++ ps) ⟨⟨before, after⟩, captures⟩ = some r ↔
      ∃ left, after = letters.map Subtype.val ++ left ∧
        follow number ps ⟨⟨(letters.map Subtype.val).reverse ++ before, left⟩, captures⟩ =
          some r := by
  induction letters generalizing before after with
  | nil => simp
  | cons l letters ih =>
    rw [List.map_cons, List.cons_append, follow_letter]
    constructor
    · rintro ⟨_, rfl, found⟩
      obtain ⟨left, rfl, reached⟩ := ih.mp found
      exact ⟨left, by simp, by simpa using reached⟩
    · rintro ⟨left, rfl, found⟩
      exact ⟨letters.map Subtype.val ++ left, by simp, ih.mpr ⟨left, rfl, by simpa using found⟩⟩

/-- A word is followed just if its letters stand there. -/
theorem follow_word (w : Word) :
    follow number (w.pieces ++ ps) ⟨⟨before, after⟩, captures⟩ = some r ↔
      ∃ left, after = w.text ++ left ∧
        follow number ps ⟨⟨w.text.reverse ++ before, left⟩, captures⟩ = some r :=
  follow_letters w.letters

theorem follow_edge (place : Cursor) :
    follow number (.edge :: ps) ⟨place, captures⟩ = some r ↔
      place.atEdge = true ∧ follow number ps ⟨place, captures⟩ = some r := by
  have words : CharClass.word.has false = isWord := by
    funext c
    simp [CharClass.has]
  rw [follow_cons]
  change (if (Anchor.edge false).holds place then follow number ps ⟨place, captures⟩
    else none) = _ ↔ _
  rw [Anchor.holds, words, ← Cursor.atEdge]
  simp

/-! Gaps. -/

/-- No word begins with a blank. -/
theorem follow_word_blank (w : Word) {b : Char} (blank : isBlank b = true) :
    follow number (w.pieces ++ ps) ⟨⟨before, b :: after⟩, captures⟩ = none := by
  by_contra found
  obtain ⟨r, found⟩ := Option.ne_none_iff_exists'.mp found
  obtain ⟨left, split, _⟩ := (follow_word w).mp found
  obtain ⟨l, more, first⟩ := w.text_first
  rw [first, List.cons_append, List.cons.injEq] at split
  rw [split.1, isBlank_of_isWord l.property] at blank
  contradiction

/-- A gap before a word takes some blanks, and the pieces after it follow from there. It cannot give back
any blank that it took, as a word has to follow. -/
theorem follow_gap (w : Word) :
    follow number (.gap :: (w.pieces ++ ps)) ⟨⟨before, after⟩, captures⟩ = some r ↔
      ∃ (g : Gap) (left : List Char), after = g.text ++ left ∧
        follow number (w.pieces ++ ps) ⟨⟨g.text.reverse ++ before, left⟩, captures⟩ = some r := by
  rw [follow_cons]
  change runFrom blankTest
    (fun before after => follow number (w.pieces ++ ps) ⟨⟨before, after⟩, captures⟩) 1 none
      before after = _ ↔ _
  have fails (before : List Char) (b : Char) (after : List Char)
      (accepted : blankTest.accepts b = true) :
      follow number (w.pieces ++ ps) ⟨⟨before, b :: after⟩, captures⟩ = none :=
    follow_word_blank w (by rwa [blankTest_accepts] at accepted)
  constructor
  · intro found
    cases after with
    | nil => contradiction
    | cons b after =>
      have ends : ∀ c ∈ (after.dropWhile isBlank).head?, blankTest.accepts c = false := by
        intro c first
        have refused := List.head?_dropWhile_not isBlank after
        rw [Option.mem_def.mp first] at refused
        rwa [blankTest_accepts]
      rw [runFrom_once, blankTest_accepts] at found
      split at found
      · next blank =>
        have blanks := List.all_eq_true.mp (List.all_takeWhile (p := isBlank) (l := after))
        rw [← List.takeWhile_append_dropWhile (p := isBlank) (l := after),
          runFrom_full fails (blankTest_accepts ▸ blanks) ends] at found
        obtain ⟨g, shape⟩ := exists_gap (List.cons_ne_nil b (after.takeWhile isBlank))
          (List.forall_mem_cons.mpr ⟨blank, blanks⟩)
        refine ⟨g, after.dropWhile isBlank, ?_, ?_⟩
        · rw [shape, List.cons_append, List.takeWhile_append_dropWhile]
        · simpa [shape] using found
      · contradiction
  · rintro ⟨g, left, rfl, found⟩
    obtain ⟨b, more, shape⟩ := List.exists_cons_of_ne_nil g.text_ne_nil
    have blanks := g.text_blank
    rw [shape] at found blanks ⊢
    rw [← blankTest_accepts] at blanks
    obtain ⟨first, others⟩ := List.forall_mem_cons.mp blanks
    have ends : ∀ c ∈ left.head?, blankTest.accepts c = false := by
      intro c next
      refine Bool.eq_false_iff.mpr fun accepted => ?_
      obtain ⟨after, rfl⟩ := List.head?_eq_some_iff.mp next
      rw [fails _ _ _ accepted] at found
      contradiction
    rw [List.cons_append, runFrom_once, if_pos first, runFrom_full fails others ends]
    simpa using found

/-! Phrases. -/

theorem follow_spaced (more : List (Gap × Word)) :
    follow number (spacedPieces more ++ ps) ⟨⟨before, after⟩, captures⟩ = some r ↔
      ∃ (more' : List (Gap × Word)) (left : List Char), more'.map Prod.snd = more.map Prod.snd ∧
        after = spaced more' ++ left ∧
          follow number ps ⟨⟨(spaced more').reverse ++ before, left⟩, captures⟩ = some r := by
  induction more generalizing before after with
  | nil =>
    constructor
    · exact fun found => ⟨[], after, rfl, rfl, found⟩
    · rintro ⟨more', left, same, rfl, found⟩
      rw [List.map_eq_nil_iff.mp same] at found ⊢
      exact found
  | cons m more ih =>
    have pieces : spacedPieces (m :: more) ++ ps =
        .gap :: (m.2.pieces ++ (spacedPieces more ++ ps)) := by
      simp [spacedPieces]
    rw [pieces, follow_gap]
    constructor
    · rintro ⟨g, _, rfl, found⟩
      obtain ⟨_, rfl, further⟩ := (follow_word m.2).mp found
      obtain ⟨more', left, same, rfl, reached⟩ := ih.mp further
      refine ⟨(g, m.2) :: more', left, by simp [same], by simp [spaced], ?_⟩
      simpa [spaced] using reached
    · rintro ⟨more', left, same, rfl, found⟩
      cases more' with
      | nil => contradiction
      | cons m' more' =>
        simp only [List.map_cons, List.cons.injEq] at same
        refine ⟨m'.1, m'.2.text ++ (spaced more' ++ left), by simp [spaced], ?_⟩
        refine (follow_word m.2).mpr ⟨spaced more' ++ left, by rw [same.1], ih.mpr ?_⟩
        exact ⟨more', left, same.2, rfl, by simpa [spaced, same.1] using found⟩

/-- A phrase is followed just if its words stand there, with any gaps between them. -/
theorem follow_phrase (p : Phrase) :
    follow number (p.pieces ++ ps) ⟨⟨before, after⟩, captures⟩ = some r ↔
      ∃ (q : Phrase) (left : List Char), q.words = p.words ∧ after = q.text ++ left ∧
        follow number ps ⟨⟨q.text.reverse ++ before, left⟩, captures⟩ = some r := by
  rw [Phrase.pieces, List.append_assoc, follow_word]
  constructor
  · rintro ⟨_, rfl, found⟩
    obtain ⟨more, left, same, rfl, reached⟩ := (follow_spaced p.more).mp found
    refine ⟨⟨p.first, more⟩, left, by simp [Phrase.words, same], by simp [Phrase.text], ?_⟩
    simpa [Phrase.text] using reached
  · rintro ⟨q, left, same, rfl, found⟩
    simp only [Phrase.words, List.cons.injEq] at same
    refine ⟨spaced q.more ++ left, by rw [Phrase.text, same.1, List.append_assoc], ?_⟩
    refine (follow_spaced p.more).mpr ⟨q.more, left, same.2, rfl, ?_⟩
    simpa [Phrase.text, same.1] using found

/-- A phrase between word edges leads from where it stands to where it ends. -/
theorem follow_fills (p : Phrase) (inside : i ≤ text.length) :
    follow number (.edge :: (p.pieces ++ .edge :: ps)) ⟨placeAt text i, captures⟩ = some r ↔
      ∃ j, p.Fills text ⟨i, j⟩ ∧ follow number ps ⟨placeAt text j, captures⟩ = some r := by
  rw [follow_edge, placeAt, follow_phrase]
  constructor
  · rintro ⟨opens, q, left, same, split, found⟩
    rw [← placeAt_append split, follow_edge] at found
    exact ⟨i + q.text.length,
      (Phrase.fills_iff inside).mpr ⟨opens, found.1, q, left, same, split, rfl⟩, found.2⟩
  · rintro ⟨j, fills, found⟩
    obtain ⟨opens, closes, q, left, same, split, rfl⟩ := (Phrase.fills_iff inside).mp fills
    refine ⟨opens, q, left, same, split, ?_⟩
    rw [← placeAt_append split]
    exact (follow_edge _).mpr ⟨closes, found⟩

/-- Where a phrase ends is settled by where it stands: both ends are found by one match. -/
theorem fills_unique {p : Phrase} {j j' : Nat} (here : p.Fills text ⟨i, j⟩)
    (here' : p.Fills text ⟨i, j'⟩) : j = j' := by
  have inside : i ≤ text.length := Nat.le_trans here.ordered here.inside
  have reaches {j : Nat} (here : p.Fills text ⟨i, j⟩) :
      follow 1 (.edge :: (p.pieces ++ .edge :: [])) ⟨placeAt text i, []⟩ =
        some ⟨placeAt text j, []⟩ :=
    (follow_fills p inside).mpr ⟨j, here, by rw [follow_nil]⟩
  have same := Option.some.inj ((reaches here).symm.trans (reaches here'))
  have left : (text.drop j).length = (text.drop j').length :=
    congrArg (fun q : Progress => q.place.after.length) same
  have within : j ≤ text.length := here.inside
  have within' : j' ≤ text.length := here'.inside
  rw [List.length_drop, List.length_drop] at left
  omega

/-! All phrases, with captures before, between and after them. -/

/-- A phrase with all that follows it depends on its place only. -/
theorem settles_phrase (number : Nat) (p : Phrase) {rest : List Phrase}
    (others : ∀ i captures, i ≤ text.length →
      ((follow number (piecesOf rest) ⟨placeAt text i, captures⟩).isSome ↔
        ∃ es, Fits text i rest es)) :
    Settles text (follow number (.edge :: (p.pieces ++ .edge :: piecesOf rest)))
      fun i => ∃ j, p.Fills text ⟨i, j⟩ ∧ ∃ es, Fits text j rest es where
  isSome_iff i captures inside := by
    constructor
    · intro found
      obtain ⟨r, found⟩ := Option.isSome_iff_exists.mp found
      obtain ⟨j, fills, reached⟩ := (follow_fills p inside).mp found
      exact ⟨j, fills, (others j captures fills.inside).mp (by rw [reached]; rfl)⟩
    · rintro ⟨j, fills, fits⟩
      obtain ⟨r, reached⟩ :=
        Option.isSome_iff_exists.mp ((others j captures fills.inside).mpr fits)
      rw [(follow_fills p inside).mpr ⟨j, fills, reached⟩]
      rfl
  past i _ := by
    rintro ⟨j, fills, fits⟩
    rw [fills.pastBlanks]
    exact ⟨j, fills, fits⟩

/-- Nothing more has to be matched after the last capture. -/
theorem settles_end : Settles text some fun _ => True where
  isSome_iff _ _ _ := by simp
  past _ _ _ := trivial

/-- Phrases with captures around them match just where the phrases fit. -/
theorem follow_isSome_iff (line : '\n' ∉ text) (phrases : List Phrase) (inside : i ≤ text.length) :
    (follow number (piecesOf phrases) ⟨placeAt text i, captures⟩).isSome ↔
      ∃ es, Fits text i phrases es := by
  induction phrases generalizing number i captures with
  | nil =>
    rw [piecesOf, follow_capture, follow_nil, captureThen_isSome_iff line settles_end inside]
    exact ⟨fun _ => ⟨[], .done⟩, fun _ => ⟨i, Nat.le_refl i, inside, trivial⟩⟩
  | cons p rest ih =>
    rw [piecesOf, follow_capture,
      captureThen_isSome_iff line (settles_phrase _ p fun _ _ within => ih within) inside,
      exists_fits_cons_iff]
    constructor
    · rintro ⟨i', later, _, j, fills, fits⟩
      exact ⟨⟨i', j⟩, later, fills, fits⟩
    · rintro ⟨⟨i', j⟩, later, fills, fits⟩
      exact ⟨i', later, Nat.le_trans fills.ordered fills.inside, j, fills, fits⟩

/-- Whether spans are captured in order from a number on, and nothing else is. -/
structure Records (number : Nat) (spans : List Span) (old new : List (Nat × Span)) : Prop where
  added : ∀ n, new.lookup (number + n) = spans[n]?
  kept : ∀ n < number, new.lookup n = old.lookup n

theorem lookup_cons_ne {span : Span} {n : Nat} (other : n ≠ number) :
    ((number, span) :: captures).lookup n = captures.lookup n := by
  rw [List.lookup_cons, beq_eq_false_iff_ne.mpr other]

theorem Records.one {span : Span} (fresh : ∀ n, number ≤ n → captures.lookup n = none) :
    Records number [span] captures ((number, span) :: captures) where
  added n := by
    cases n with
    | zero => simp
    | succ n =>
      rw [lookup_cons_ne (by omega), fresh _ (Nat.le_add_right _ _)]
      rfl
  kept n below := lookup_cons_ne (Nat.ne_of_lt below)

/-- One span more is captured in front of those that follow. -/
theorem Records.cons {span : Span} {spans : List Span} {new : List (Nat × Span)}
    (others : Records (number + 1) spans ((number, span) :: captures) new) :
    Records number (span :: spans) captures new where
  added n := by
    cases n with
    | zero => simpa using others.kept number (Nat.lt_succ_self number)
    | succ n => simpa [Nat.add_comm, Nat.add_left_comm] using others.added n
  kept n below := by
    rw [others.kept n (Nat.lt_succ_of_lt below), lookup_cons_ne (Nat.ne_of_lt below)]

/-- Phrases with captures around them are matched as far right as they fit, the first one first, and the
captures take what is around them. Other places further right have their first stretch later, or have the
same one and then others further right. -/
theorem follow_some (line : '\n' ∉ text) (phrases : List Phrase) (inside : i ≤ text.length)
    (fresh : ∀ n, number ≤ n → captures.lookup n = none)
    (found : follow number (piecesOf phrases) ⟨placeAt text i, captures⟩ = some r) :
    ∃ es, Rightmost text i phrases es ∧ Records number (around text i es) captures r.captures := by
  induction phrases generalizing number i captures with
  | nil =>
    rw [piecesOf, follow_capture, follow_nil] at found
    obtain ⟨j, _, within, reached, last⟩ := captureThen_some line settles_end inside found
    cases reached
    have ended : j = text.length := by
      by_contra short
      exact last text.length (Nat.lt_of_le_of_ne within short) (Nat.le_refl _) trivial
    refine ⟨[], ⟨.done, fun others fits => ?_⟩, ?_⟩
    · rw [fits_nil_iff.mp fits]
      rintro ⟨⟩
    · rw [ended, List.drop_length]
      exact .one fresh
  | cons p rest ih =>
    rw [piecesOf, follow_capture] at found
    have settled := settles_phrase (number + 1) p
      fun _ _ within => follow_isSome_iff line rest within
    obtain ⟨i', later, within, reached, last⟩ := captureThen_some line settled inside found
    obtain ⟨j, fills, further⟩ := (follow_fills p within).mp reached
    obtain ⟨es, best, records⟩ := ih fills.inside (fun n above => by
      rw [lookup_cons_ne (by omega), fresh n (by omega)]) further
    refine ⟨⟨i', j⟩ :: es, ⟨.next later fills best.fits, fun others fits beyond => ?_⟩, records.cons⟩
    cases fits with
    | @next _ _ _ e more later' fills' fits' =>
      obtain ⟨start, stop⟩ := e
      cases beyond with
      | rel further =>
        exact last start further (Nat.le_trans fills'.ordered fills'.inside)
          ⟨stop, fills', more, fits'⟩
      | cons beyond =>
        rw [fills_unique fills' fills] at fits'
        exact best.last more fits' beyond

end Colloquy.Regex
