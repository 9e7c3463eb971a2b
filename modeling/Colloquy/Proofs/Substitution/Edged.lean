import Colloquy.Proofs.Substitution
import Colloquy.Proofs.Text.Scan

/-! Words that begin and end with a word character. Such a word is found at a place exactly if it stands
there with no word character next to it, so that a scan sees nothing of what it has passed but whether
the last character was one. -/

namespace Colloquy.Substitutions

open Text

variable {word before before' after rest text : List Char} {c : Char} {entries : List Substitution}
  {t : Substitutions} {nonempty : Bool}

/-- Whether the first and the last character of a word are word characters. -/
structure Edged (word : List Char) : Prop where
  first : word.head?.any isWord = true
  last : word.getLast?.any isWord = true

instance (word : List Char) : Decidable (Edged word) :=
  decidable_of_iff (word.head?.any isWord = true ∧ word.getLast?.any isWord = true)
    ⟨fun both => ⟨both.1, both.2⟩, fun edged => ⟨edged.first, edged.last⟩⟩

theorem Edged.ne_nil (edged : Edged word) : word ≠ [] := by
  rintro rfl
  have first := edged.first
  contradiction

/-- Whether a word stands at the start of a text with no word character after it. -/
def opens (word text : List Char) : Bool :=
  word.isPrefixOf text && !(text.drop word.length).head?.any isWord

theorem opens_iff : opens word text = true ↔ ∃ rest, text = word ++ rest ∧ rest.head?.any isWord = false := by
  rw [opens, Bool.and_eq_true, List.isPrefixOf_iff_prefix, Bool.not_eq_true']
  constructor
  · rintro ⟨⟨rest, rfl⟩, ends⟩
    rw [List.drop_left] at ends
    exact ⟨rest, rfl, ends⟩
  · rintro ⟨rest, rfl, ends⟩
    rw [List.drop_left]
    exact ⟨List.prefix_append word rest, ends⟩

theorem opens_self (word : List Char) : opens word word = true := opens_iff.mpr ⟨[], by simp, rfl⟩

theorem skip?_append (word before rest : List Char) :
    Cursor.skip? word ⟨before, word ++ rest⟩ = some ⟨word.reverse ++ before, rest⟩ := by
  induction word generalizing before with
  | nil => rfl
  | cons c word ih => simp [Cursor.skip?, ih]

theorem skip?_eq_none (other : ¬word <+: after) : Cursor.skip? word ⟨before, after⟩ = none := by
  induction word generalizing before after with
  | nil => exact absurd List.nil_prefix other
  | cons c word ih =>
    cases after with
    | nil => rfl
    | cons d after =>
      rw [Cursor.skip?]
      split
      · next same =>
        subst same
        exact ih (fun begins => other ((List.prefix_cons_inj c).mpr begins))
      · rfl

/-- A word with word characters at both ends stands whole at a place just if none is before or after it.
-/
theorem wordEnd?_eq (edged : Edged word) : wordEnd? word ⟨before, after⟩ =
    if !before.head?.any isWord && opens word after then
      some ⟨word.reverse ++ before, after.drop word.length⟩
    else none := by
  by_cases begins : word <+: after
  · obtain ⟨rest, rfl⟩ := begins
    have first : (word ++ rest).head? = word.head? := List.head?_append_of_ne_nil _ edged.ne_nil
    have last : (word.reverse ++ before).head? = word.getLast? := by
      rw [List.head?_append_of_ne_nil _ (by simpa using edged.ne_nil), List.head?_reverse]
    simp only [wordEnd?, skip?_append, Cursor.atEdge, Cursor.atEdgeOf, first, last, edged.first,
      edged.last, opens, List.drop_left, Bool.bne_true, Bool.true_bne, Bool.not_eq_true',
      List.isPrefixOf_iff_prefix.mpr (List.prefix_append word rest), Bool.true_and]
    cases before.head?.any isWord <;> cases rest.head?.any isWord <;> simp
  · have unopened : opens word after = false := by
      rw [← Bool.not_eq_true, opens_iff]
      rintro ⟨rest, rfl, _⟩
      exact begins (List.prefix_append word rest)
    rw [wordEnd?, skip?_eq_none begins, unopened]
    simp

/-- At a place that no word character precedes, what is found is the first entry that opens there. -/
theorem find?_eq (edged : ∀ e ∈ entries, Edged e.word.toList) (nonempty : Bool)
    (before after : List Char) :
    find? entries nonempty ⟨before, after⟩ =
      if before.head?.any isWord then none
      else (entries.find? fun e => opens e.word.toList after).map fun e =>
        (e.replacement.toList, ⟨e.word.toList.reverse ++ before, after.drop e.word.toList.length⟩) := by
  induction entries with
  | nil => simp [find?]
  | cons e entries ih =>
    obtain ⟨first, edged⟩ := List.forall_mem_cons.mp edged
    have some_ : e.word.isEmpty = false := by simpa using first.ne_nil
    have later := ih edged
    rw [find?] at later ⊢
    rw [List.findSome?_cons, some_, Bool.and_false, if_neg Bool.false_ne_true, wordEnd?_eq first, later,
      List.find?_cons]
    cases before.head?.any isWord <;> cases opens e.word.toList after <;> simp

theorem find?_gap (edged : ∀ e ∈ entries, Edged e.word.toList) (gap : after.head?.any isWord = false) :
    find? entries nonempty ⟨before, after⟩ = none := by
  have none_ : entries.find? (fun e => opens e.word.toList after) = none := by
    rw [List.find?_eq_none]
    intro e member opened
    obtain ⟨rest, rfl, _⟩ := opens_iff.mp opened
    rw [List.head?_append_of_ne_nil _ (edged e member).ne_nil, (edged e member).first] at gap
    contradiction
  rw [find?_eq edged, none_]
  simp

theorem advances (edged : ∀ e ∈ t.entries, Edged e.word.toList) : Cursor.Advances (find? t.entries) := by
  constructor
  · rintro nonempty ⟨before, after⟩
    rw [find?_eq edged, find?_eq edged]
  · rintro ⟨before, after⟩ replacement stop found
    rw [find?_eq edged] at found
    split at found
    · contradiction
    · obtain ⟨e, opened, same⟩ := Option.map_eq_some_iff.mp found
      cases same
      have opens_ : opens e.word.toList after = true := by simpa using List.find?_some opened
      obtain ⟨rest, rfl, _⟩ := opens_iff.mp opens_
      have longer := List.length_pos_iff.mpr (edged e (List.mem_of_find?_eq_some opened)).ne_nil
      simp only [List.drop_left, List.length_append]
      omega

/-- To apply a table is to scan the text once, from left to right. -/
theorem applyTo_eq_scan (edged : ∀ e ∈ t.entries, Edged e.word.toList) (text : List Char) :
    t.applyTo text = Cursor.scan (find? t.entries) ⟨[], text⟩ :=
  Cursor.replaceAll_eq_scan (advances edged) text

/-- Of what stands before a place only the kind of the last character matters. -/
theorem scan_congr (edged : ∀ e ∈ t.entries, Edged e.word.toList)
    (alike : before.head?.any isWord = before'.head?.any isWord) :
    Cursor.scan (find? t.entries) ⟨before, after⟩ = Cursor.scan (find? t.entries) ⟨before', after⟩ := by
  induction count : after.length using Nat.strongRecOn generalizing before before' after with
  | _ n ih =>
    have here := find?_eq edged false before after
    have here' := find?_eq edged false before' after
    have passes (none_ : find? t.entries false ⟨before, after⟩ = none)
        (none_' : find? t.entries false ⟨before', after⟩ = none) :
        Cursor.scan (find? t.entries) ⟨before, after⟩ = Cursor.scan (find? t.entries) ⟨before', after⟩ := by
      cases after with
      | nil => rw [Cursor.scan_nil none_, Cursor.scan_nil none_']
      | cons c rest =>
        rw [Cursor.scan_cons none_, Cursor.scan_cons none_']
        exact congrArg (c :: ·) (ih rest.length (by simp [← count]) rfl rfl)
    rw [alike] at here
    cases inside : before'.head?.any isWord with
    | true =>
      rw [if_pos inside] at here here'
      exact passes here here'
    | false =>
      rw [inside, if_neg Bool.false_ne_true] at here here'
      cases opened : t.entries.find? fun e => opens e.word.toList after with
      | none =>
        rw [opened] at here here'
        exact passes here here'
      | some e =>
        rw [opened] at here here'
        rw [Cursor.scan_found (advances edged) here, Cursor.scan_found (advances edged) here']
        have opens_ : opens e.word.toList after = true := by simpa using List.find?_some opened
        obtain ⟨rest, rfl, _⟩ := opens_iff.mp opens_
        have some_ := (edged e (List.mem_of_find?_eq_some opened)).ne_nil
        have longer := List.length_pos_iff.mpr some_
        refine congrArg (e.replacement.toList ++ ·) (ih _ ?_ ?_ rfl)
        · simp only [← count, List.drop_left, List.length_append]
          omega
        · have last : e.word.toList.reverse ≠ [] := by simpa using some_
          rw [List.head?_append_of_ne_nil _ last, List.head?_append_of_ne_nil _ last]

/-! Tables of pairs. -/

variable {pairs : List Substitution}

def latest? (pairs : List Substitution) (word : String) : Option String :=
  (pairs.reverse.find? (·.word = word)).map Substitution.replacement

/-- A table made of pairs has for a word what is listed last for it. -/
theorem lookup?_ofPairs (pairs : List Substitution) (word : String) :
    (ofPairs pairs).lookup? word = latest? pairs word := by
  rw [lookup?, ofPairs_entries, Keyed.find?_ofList, latest?]

theorem exists_of_mem_ofPairs {e : Substitution} (member : e ∈ (ofPairs pairs).entries) :
    ∃ s ∈ pairs, s.word = e.word := by
  rw [ofPairs_entries] at member
  have word : e.word ∈ (Keyed.ofList Substitution.word pairs).map Substitution.word :=
    List.mem_map_of_mem member
  rw [Keyed.keys_ofList, List.mem_eraseDups] at word
  exact List.mem_map.mp word

theorem ofPairs_edged (edged : ∀ s ∈ pairs, Edged s.word.toList) :
    ∀ e ∈ (ofPairs pairs).entries, Edged e.word.toList := by
  intro e member
  obtain ⟨s, listed, same⟩ := exists_of_mem_ofPairs member
  exact same ▸ edged s listed

end Colloquy.Substitutions
