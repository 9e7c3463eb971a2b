import Colloquy.Proofs.Regex.Framed
import Colloquy.Proofs.Regex.Outcomes

/-! The parts of a text that an expression matches, and what it comes to that an expression stands
between word edges. -/

namespace Colloquy.Regex

open Text

variable {r : Regex} {k : Next} {p : Part} {q : Progress} {text : List Char} {i j n : Nat}
  {b : List Part} {bs : List (List Part)}

/-- Whether a match that gets here ends at a place that passes a test. -/
def endsAt (test : Cursor → Bool) : Next := fun q => if test q.place then some q else none

/-- Whether an expression matches just the part of a text from `i` to `j`. -/
def matchesPart (r : Regex) (text : List Char) (i j : Nat) : Bool :=
  (matchThen r (endsAt (· == placeAt text j)) ⟨placeAt text i, []⟩).isSome

theorem isSome_endsAt {test : Cursor → Bool} : (endsAt test q).isSome ↔ test q.place = true := by
  simp [endsAt]

theorem placeAt_of_onward {captures : List (Nat × Span)} (inside : i ≤ text.length)
    (onward : Onward ⟨placeAt text i, captures⟩ q) :
    ∃ j, i ≤ j ∧ j ≤ text.length ∧ q.place = placeAt text j := by
  have whole : q.place.before.reverse ++ q.place.after = text := by
    rw [← List.take_append_drop i text]
    simpa [Cursor.text, placeAt] using onward.text
  have further := onward.further
  simp only [placeAt, List.length_reverse, List.length_take] at further
  refine ⟨q.place.before.length, by omega, by simp [← whole], ?_⟩
  simp [placeAt, ← whole, List.take_left', List.drop_left']

/-- A match that ends at a place that passes a test matches the part up to that place. -/
theorem matchThen_endsAt {test : Cursor → Bool} (inside : i ≤ text.length) :
    (matchThen r (endsAt test) ⟨placeAt text i, []⟩).isSome ↔
      ∃ j, i ≤ j ∧ j ≤ text.length ∧ test (placeAt text j) = true ∧ r.matchesPart text i j = true := by
  obtain ⟨qs, onward, found⟩ := (matchThen_tries r ⟨placeAt text i, []⟩).isSome_iff_exists
  simp only [matchesPart, found, isSome_endsAt]
  constructor
  · rintro ⟨q, member, passed⟩
    obtain ⟨j, above, below, same⟩ := placeAt_of_onward inside (onward q member)
    exact ⟨j, above, below, same ▸ passed, q, member, beq_iff_eq.mpr same⟩
  · rintro ⟨j, _, _, passed, q, member, same⟩
    exact ⟨q, member, beq_iff_eq.mp same ▸ passed⟩

/-! Parts that follow each other, and alternatives. -/

theorem matchThen_sequence_cons (p : Part) (ps : List Part) (k : Next) :
    matchThen (sequence (p :: ps)) k = matchThen p.regex (matchThen (sequence ps) k) := by
  cases ps <;> rfl

/-- A sequence matches as its first parts do, and then the others. -/
theorem matchThen_sequence_append (ps rest : List Part) (k : Next) :
    matchThen (sequence (ps ++ rest)) k = matchThen (sequence ps) (matchThen (sequence rest) k) := by
  induction ps with
  | nil => rfl
  | cons p ps ih => rw [List.cons_append, matchThen_sequence_cons, ih, matchThen_sequence_cons]

theorem alternatives_cons {rest : List (List Part)} (others : rest ≠ []) :
    alternatives (b :: rest) = .alt (sequence b) (alternatives rest) := by
  rw [alternatives]
  exact others

/-- Alternatives match just if one of them does. -/
theorem matchThen_alternatives_isSome : (matchThen (alternatives bs) k q).isSome ↔
    ∃ b ∈ bs, (matchThen (sequence b) k q).isSome := by
  induction bs with
  | nil => simp [alternatives, matchThen]
  | cons b rest ih =>
    cases rest with
    | nil => simp [alternatives]
    | cons c rest =>
      rw [alternatives_cons (List.cons_ne_nil c rest), matchThen, List.exists_mem_cons_iff, ← ih]
      cases matchThen (sequence b) k q <;> simp

theorem getElem?_withFirst : (withFirst p bs)[n]? =
    bs[n]?.map fun b => (if n = 0 then [p] else []) ++ b := by
  cases bs <;> cases n <;> simp [withFirst]

theorem getElem?_withLast : (withLast p bs)[n]? =
    bs[n]?.map fun b => b ++ if n + 1 = bs.length then [p] else [] := by
  induction bs generalizing n with
  | nil => rfl
  | cons b rest ih =>
    cases rest with
    | nil => cases n <;> simp [withLast]
    | cons c rest =>
      rw [withLast_cons (List.cons_ne_nil c rest)]
      cases n with
      | zero => simp
      | succ n => simp [ih]

def edgeIf (asked : Prop) [Decidable asked] : List Part :=
  if asked then [.place (.edge false)] else []

/-- The alternatives of a framed expression: an edge stands before the first and after the last one only.
-/
theorem getElem?_framed : (framed bs)[n]? =
    bs[n]?.map fun b => edgeIf (n = 0) ++ (b ++ edgeIf (n + 1 = bs.length)) := by
  rw [framed, getElem?_withFirst, getElem?_withLast, Option.map_map]
  rfl

theorem matchThen_edge :
    matchThen (.anchor (.edge false)) k q = if q.place.atEdge = true then k q else none := rfl

theorem matchThen_edgeIf {asked : Prop} [Decidable asked] :
    (matchThen (sequence (edgeIf asked)) k q).isSome ↔
      (asked → q.place.atEdge = true) ∧ (k q).isSome := by
  by_cases h : asked
  · rw [edgeIf, if_pos h, sequence, Part.regex, matchThen_edge]
    by_cases edge : q.place.atEdge = true <;> simp [h, edge]
  · simp [edgeIf, h, sequence, matchThen]

/-- A sequence with edges asked for matches just the parts of the text that it matches, with those edges.
-/
theorem matchThen_sequence_edged {first last : Prop} [Decidable first] [Decidable last]
    (inside : i ≤ text.length) :
    (matchThen (sequence (edgeIf first ++ (b ++ edgeIf last))) some ⟨placeAt text i, []⟩).isSome ↔
      (first → (placeAt text i).atEdge = true) ∧ ∃ j, i ≤ j ∧ j ≤ text.length ∧
        (last → (placeAt text j).atEdge = true) ∧ (sequence b).matchesPart text i j = true := by
  have ending : matchThen (sequence (edgeIf last)) some =
      endsAt fun c => decide (last → c.atEdge = true) := by
    funext q
    by_cases h : last
    · simp [edgeIf, h, sequence, Part.regex, matchThen_edge, endsAt]
    · simp [edgeIf, h, sequence, matchThen, endsAt]
  rw [matchThen_sequence_append, matchThen_edgeIf, matchThen_sequence_append, ending,
    matchThen_endsAt inside]
  simp only [decide_eq_true_eq]

/-- Alternatives between word edges are found where one of them matches. Only the first has to begin
at a word edge, and only the last has to end at one. -/
theorem matchThen_framed (inside : i ≤ text.length) :
    (matchThen (alternatives (framed bs)) some ⟨placeAt text i, []⟩).isSome ↔
      ∃ n b j, bs[n]? = some b ∧ i ≤ j ∧ j ≤ text.length ∧
        (sequence b).matchesPart text i j = true ∧
        (n = 0 → (placeAt text i).atEdge = true) ∧
        (n + 1 = bs.length → (placeAt text j).atEdge = true) := by
  simp only [matchThen_alternatives_isSome, List.mem_iff_getElem?, getElem?_framed,
    Option.map_eq_some_iff]
  constructor
  · rintro ⟨_, ⟨n, b, found, rfl⟩, matched⟩
    obtain ⟨starts, j, above, below, ends, part⟩ := (matchThen_sequence_edged inside).mp matched
    exact ⟨n, b, j, found, above, below, part, starts, ends⟩
  · rintro ⟨n, b, j, found, above, below, part, starts, ends⟩
    exact ⟨_, ⟨n, b, found, rfl⟩,
      (matchThen_sequence_edged inside).mpr ⟨starts, j, above, below, ends, part⟩⟩

end Colloquy.Regex
