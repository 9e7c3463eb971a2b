import Colloquy.Proofs.Fragment.Broken

/-! Fragments are in normal form. A fragment has nothing that breaking would change, nor have fragments
that are joined by break marks: they come out as they went in. -/

namespace Colloquy.Fragment

open Text

variable {text t f : List Char} {c : Char} {fs : List (List Char)}

/-! Fragments of a broken text. -/

/-- A broken text without breaks. -/
structure Piece (f : List Char) : Prop where
  nonempty : f ≠ []
  unbroken : ∀ c ∈ f, c ≠ breakMark
  broken : Broken f

theorem Piece.single (piece : Piece f) : Single f :=
  (List.pairwise_of_forall_mem_list fun c own _ _ mark => absurd mark (piece.unbroken c own)).isChain

theorem Piece.parts_eq (piece : Piece f) : parts f = [f] := by
  have own : ∀ c ∈ f, (c == breakMark) = false := fun c member => by simpa using piece.unbroken c member
  rw [parts, runs_eq_singleton piece.nonempty own]
  rfl

/-- Whether no blank is left where two fragments meet. -/
def Meet (f g : List Char) : Prop :=
  (∀ c ∈ f.getLast?, isBlank c = false) ∧ ∀ c ∈ g.head?, isBlank c = false

/-- The parts of a broken text are pieces. -/
theorem piece_of_mem_parts (broken : Broken t) (member : f ∈ parts t) : Piece f := by
  obtain ⟨r, kept, rfl⟩ := List.mem_map.mp member
  obtain ⟨member, kind⟩ := List.mem_filter.mp kept
  have kind : r.kind = false := by simpa using kind
  have maximal := maximal_runs (· == breakMark) t
  have inside := chars_isInfix_of_mem_runs member
  have edge : ∀ c d : Char, (c == breakMark) ≠ (d == breakMark) → isWord c = false ∨ isWord d = false := by
    intro c d other
    by_cases mark : c = breakMark
    · exact .inl (by rw [mark]; rfl)
    · have mark' : d = breakMark := by simpa [mark] using other
      exact .inr (by rw [mark']; rfl)
  refine ⟨maximal.nonempty r member, fun c own => ?_, ?_⟩
  · simpa [kind] using maximal.solid r member c own
  constructor
  · exact fun c own => broken.small c (inside.subset own)
  · exact fun c own => broken.symbols c (inside.subset own)
  · exact fun c own => broken.stops c (inside.subset own)
  · exact fun dashed => broken.dashes (dashed.of_isInfix inside)
  · intro whole
    refine broken.words ?_
    rw [← unruns_runs (· == breakMark) t]
    exact whole.of_mem edge conjunction_words conjunction_ne_nil maximal member
  · exact broken.tight.infix inside
  · exact broken.narrow.infix inside

/-- The runs of a text without blanks next to breaks; where it begins with a break, the first fragment
begins with a solid character. -/
theorem isChain_meet {rs : List (Run Bool)} (maximal : Maximal (· == breakMark) rs)
    (tight : (unruns rs).IsChain Tight) :
    ((rs.filter fun r => !r.kind).map Run.chars).IsChain Meet ∧
      ((∀ r ∈ rs.head?, r.kind = true) →
        ∀ f ∈ ((rs.filter fun r => !r.kind).map Run.chars).head?, ∀ c ∈ f.head?, isBlank c = false) := by
  induction rs with
  | nil => simp
  | cons r rs ih =>
    rw [unruns_cons] at tight
    obtain ⟨_, later, across⟩ := List.isChain_append.mp tight
    obtain ⟨chain, begins⟩ := ih maximal.tail later
    have nonempty := maximal.nonempty r List.mem_cons_self
    have mark : ∀ c ∈ r.chars, (c == breakMark) = r.kind := maximal.solid r List.mem_cons_self
    have last := List.getLast?_eq_some_getLast nonempty
    have own := mark _ (List.getLast_mem nonempty)
    cases kind : r.kind with
    | true =>
      rw [List.filter_cons_of_neg (by simp [kind])]
      refine ⟨chain, fun _ f first c head => ?_⟩
      cases rs with
      | nil => contradiction
      | cons s more =>
        have kind' : s.kind = false := by simpa [kind] using (maximal.head_ne s rfl).symm
        rw [List.filter_cons_of_pos (by simp [kind'])] at first
        cases first
        refine (across _ last c ?_).1 (by simpa [kind] using own)
        rwa [unruns_cons, List.head?_append_of_ne_nil _ (maximal.tail.nonempty s List.mem_cons_self)]
    | false =>
      rw [List.filter_cons_of_pos (by simp [kind])]
      refine ⟨List.isChain_cons.mpr ⟨fun g next => ?_, chain⟩, fun marked => ?_⟩
      · cases rs with
        | nil => contradiction
        | cons s more =>
          have kind' : s.kind = true := by simpa [kind] using (maximal.head_ne s rfl).symm
          obtain ⟨d, others, chars, first⟩ := maximal.tail.exists_cons
          constructor
          · intro c found
            refine (across c found d (by simp [unruns_cons, chars])).2 ?_
            simpa [kind'] using first
          · refine begins ?_ g next
            rintro s ⟨⟩
            exact kind'
      · have marked := marked r rfl
        rw [kind] at marked
        contradiction

theorem isInfix_of_not_mem {a b u : List Char} (other : c ∉ u) (inside : u <:+: a ++ c :: b) :
    u <:+: a ∨ u <:+: b := by
  induction a with
  | nil =>
    rcases List.infix_cons_iff.mp inside with first | later
    · cases u with
      | nil => exact .inl (List.nil_infix)
      | cons d u =>
        obtain ⟨rfl, _⟩ := List.cons_prefix_cons.mp first
        simp at other
    · exact .inr later
  | cons d a ih =>
    rcases List.infix_cons_iff.mp inside with first | later
    · left
      obtain ⟨v, same⟩ := first
      have same : u ++ v = (d :: a) ++ c :: b := same
      rcases List.append_eq_append_iff.mp same with ⟨w, within, _⟩ | ⟨w, beyond, rest⟩
      · exact ⟨[], w, within.symm⟩
      · cases w with
        | nil => exact ⟨[], [], by simp [beyond]⟩
        | cons e w =>
          obtain ⟨rfl, _⟩ := List.cons_eq_cons.mp rest
          simp [beyond] at other
    · exact (ih later).imp_left fun inside => inside.trans (List.suffix_cons d a).isInfix

/-- A fragment, a break and a broken text that goes on without a blank are a broken text. -/
theorem Broken.join (piece : Piece f) (last : ∀ c ∈ f.getLast?, isBlank c = false) (broken : Broken t)
    (first : ∀ c ∈ t.head?, isBlank c = false) : Broken (f ++ breakMark :: t) := by
  have clean {P : Char → Prop} (mark : P breakMark) (own : ∀ c ∈ f, P c) (later : ∀ c ∈ t, P c) :
      ∀ c ∈ f ++ breakMark :: t, P c :=
    List.forall_mem_append.mpr ⟨own, List.forall_mem_cons.mpr ⟨mark, later⟩⟩
  constructor
  · exact clean (by decide) piece.broken.small broken.small
  · exact clean (by decide) piece.broken.symbols broken.symbols
  · exact clean (fun _ => rfl) piece.broken.stops broken.stops
  · rintro ⟨x, n, y, before, after, found⟩
    rcases isInfix_of_not_mem (breakMark_not_mem n before after) found with inside | inside
    · exact piece.broken.dashes ⟨x, n, y, before, after, inside⟩
    · exact broken.dashes ⟨x, n, y, before, after, inside⟩
  · rw [standsWhole_append conjunction_words conjunction_ne_nil (.inr rfl),
      standsWhole_cons conjunction_words conjunction_ne_nil rfl]
    exact not_or.mpr ⟨piece.broken.words, broken.words⟩
  · refine List.isChain_append.mpr ⟨piece.broken.tight, List.isChain_cons.mpr ⟨?_, broken.tight⟩, ?_⟩
    · exact fun c head => ⟨fun _ => first c head, fun _ => rfl⟩
    · rintro c found d ⟨⟩
      exact ⟨fun _ => rfl, fun _ => last c found⟩
  · refine List.isChain_append.mpr ⟨piece.broken.narrow, List.isChain_cons.mpr ⟨?_, broken.narrow⟩, ?_⟩
    · exact fun c head _ => first c head
    · rintro c found d ⟨⟩ _
      rfl

theorem Single.join (piece : Piece f) (single : Single t) (first : ∀ c ∈ t.head?, c ≠ breakMark) :
    Single (f ++ breakMark :: t) := by
  refine List.isChain_append.mpr ⟨piece.single,
    List.isChain_cons.mpr ⟨fun c head _ => first c head, single⟩, ?_⟩
  exact fun c found d _ mark => absurd mark (piece.unbroken c (List.mem_of_mem_getLast? found))

/-- A piece and a text joined by a break are parted there again. -/
theorem parts_join (piece : Piece f) (first : ∀ c ∈ t.head?, c ≠ breakMark) :
    parts (f ++ breakMark :: t) = f :: parts t := by
  have marked : runs (· == breakMark) (breakMark :: t) = ⟨true, [breakMark]⟩ :: runs (· == breakMark) t := by
    refine runs_piece (a := [breakMark]) (by simp) (by simp) fun s head => ?_
    cases t with
    | nil => simp [runs] at head
    | cons c t =>
      obtain ⟨more, others, begins⟩ := exists_runs_cons (· == breakMark) c t
      rw [begins] at head
      cases head
      simpa using first c rfl
  have own : ∀ c ∈ f, (c == breakMark) = false := fun c member => by simpa using piece.unbroken c member
  rw [parts, runs_piece piece.nonempty own (by simp [marked]), marked]
  rfl

/-- Fragments joined by break marks: a broken text, of which they are the fragments. -/
theorem joined_fragments (pieces : ∀ f ∈ fs, Piece f) (meet : fs.IsChain Meet) :
    Broken ([breakMark].intercalate fs) ∧ Single ([breakMark].intercalate fs) ∧
      parts ([breakMark].intercalate fs) = fs := by
  induction fs with
  | nil =>
    refine ⟨⟨by simp, by simp, by simp, ?_, ?_, .nil, .nil⟩, .nil, rfl⟩
    · rintro ⟨x, n, y, _, _, inside⟩
      simp at inside
    · rintro ⟨a, b, same, _⟩
      simp [conjunction] at same
  | cons f fs ih =>
    obtain ⟨piece, pieces⟩ := List.forall_mem_cons.mp pieces
    cases fs with
    | nil =>
      rw [List.intercalate_singleton]
      exact ⟨piece.broken, piece.single, piece.parts_eq⟩
    | cons g more =>
      obtain ⟨meets, chain⟩ := List.isChain_cons_cons.mp meet
      obtain ⟨broken, single, again⟩ := ih pieces chain
      have next := pieces g List.mem_cons_self
      have begins : ([breakMark].intercalate (g :: more)).head? = g.head? := by
        cases more with
        | nil => rw [List.intercalate_singleton]
        | cons h rest =>
          rw [List.intercalate_cons_cons, List.append_assoc, List.head?_append_of_ne_nil _ next.nonempty]
      have solid : ∀ c ∈ ([breakMark].intercalate (g :: more)).head?, c ≠ breakMark := by
        rw [begins]
        exact fun c head => next.unbroken c (List.mem_of_mem_head? head)
      rw [List.intercalate_cons_cons, List.append_assoc, List.singleton_append]
      refine ⟨.join piece meets.1 broken (by rw [begins]; exact meets.2), .join piece single solid, ?_⟩
      rw [parts_join piece solid, again]

/-- Lowercase, of at least one character, with nothing in it that breaks or is blanked, and with narrow
gaps. -/
structure Normal (f : List Char) : Prop where
  nonempty : f ≠ []
  small : lower f = f
  symbols : ∀ c ∈ f, symbols.contains c = false
  stops : ∀ c ∈ f, isStop c = false
  lines : '\n' ∉ f
  words : ¬StandsWhole conjunction f
  dashes : ¬Dashed f
  gaps : ∀ c d, [c, d] <:+: f → ¬(isBlank c = true ∧ isBlank d = true)

/-- A piece is in normal form. -/
theorem Piece.normal (piece : Piece f) : Normal f where
  nonempty := piece.nonempty
  small := lower_of_small piece.broken.small
  symbols := piece.broken.symbols
  stops c member := by
    rw [← Bool.not_eq_true]
    exact fun stop => piece.unbroken c member (piece.broken.stops c member stop)
  lines member := by
    have clear := piece.broken.symbols _ member
    revert clear
    decide
  words := piece.broken.words
  dashes := piece.broken.dashes
  gaps := by
    rintro c d inside ⟨blank, blank'⟩
    have narrow := piece.broken.narrow.infix inside
    have solid := (List.isChain_cons_cons.mp narrow).1 blank
    rw [blank'] at solid
    contradiction

/-- Every fragment is in normal form and its own one fragment, and fragments that are joined by periods
come apart again. -/
theorem fragments_normal (text : String) :
    (∀ f ∈ split text, Normal f.toList ∧ split f = [f]) ∧
      split (".".intercalate (split text)) = split text := by
  have broken := broken_normalize text.toList
  have pieces : ∀ f ∈ parts (normalize text.toList), Piece f := fun f => piece_of_mem_parts broken
  constructor
  · intro f member
    obtain ⟨chars, own, rfl⟩ := List.mem_map.mp member
    have piece := pieces chars own
    rw [split, String.toList_ofList, normalize_of_broken piece.broken piece.single, piece.parts_eq]
    exact ⟨piece.normal, rfl⟩
  · have meet : (parts (normalize text.toList)).IsChain Meet := by
      refine (isChain_meet (maximal_runs _ _) ?_).1
      rw [unruns_runs]
      exact broken.tight
    obtain ⟨again, single, same⟩ := joined_fragments pieces meet
    have chars : (".".intercalate (split text)).toList =
        [breakMark].intercalate (parts (normalize text.toList)) := by
      rw [String.toList_intercalate, split, List.map_map]
      simp [Function.comp_def, breakMark]
    rw [split, chars, normalize_of_broken again single, same, split]

example : split "Well - - but,but  THE butler; - -" = ["well", "-", "the butler", "-"] := by decide +kernel

end Colloquy.Fragment
