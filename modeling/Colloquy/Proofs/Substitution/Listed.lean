import Colloquy.Proofs.Substitution.Edged

/-! What a table does with its own words. Of the words that open a text the first listed is replaced, so
that a word is replaced as a whole unless a shorter one that opens it comes first. -/

namespace Colloquy.Substitutions

open Text

variable {pairs : List Substitution} {word rest w : String}

def opener? (pairs : List Substitution) (text : String) : Option String :=
  (pairs.find? fun s => opens s.word.toList text.toList).map Substitution.word

theorem opener?_isSome (listed : ∃ s ∈ pairs, s.word = w) : (opener? pairs w).isSome := by
  obtain ⟨s, member, rfl⟩ := listed
  rw [opener?, Option.isSome_map, List.find?_isSome]
  exact ⟨s, member, opens_self s.word.toList⟩

/-- Of the words that open a text the first listed one is found. -/
theorem find?_opener (opener : opener? pairs w = some word) :
    ∃ e ∈ (ofPairs pairs).entries, e.word = word ∧
      (ofPairs pairs).entries.find? (fun e => opens e.word.toList w.toList) = some e := by
  have first := Keyed.find?_keys_ofList Substitution.word (fun u => opens u.toList w.toList) pairs
  rw [← ofPairs_entries, List.find?_map, List.find?_map] at first
  obtain ⟨e, found, same⟩ := Option.map_eq_some_iff.mp (first.trans opener)
  exact ⟨e, List.mem_of_find?_eq_some found, same, found⟩

theorem scan_after (edged : ∀ s ∈ pairs, Edged s.word.toList) {before after : List Char}
    (ends : after.head?.any isWord = false) :
    Cursor.scan (find? (ofPairs pairs).entries) ⟨before, after⟩ = (ofPairs pairs).applyTo after := by
  have edged := ofPairs_edged edged
  rw [applyTo_eq_scan edged]
  cases after with
  | nil => rw [Cursor.scan_nil (find?_gap edged ends), Cursor.scan_nil (find?_gap edged ends)]
  | cons c rest =>
    rw [Cursor.scan_cons (find?_gap edged ends), Cursor.scan_cons (find?_gap edged ends)]
    exact congrArg (c :: ·) (scan_congr edged rfl)

/-- The word that opens a text is replaced, and the rest as a text of its own. -/
theorem apply_of_opener (edged : ∀ s ∈ pairs, Edged s.word.toList)
    (opener : opener? pairs w = some word) :
    ∃ rest, w = word ++ rest ∧
      (latest? pairs word).map (· ++ (ofPairs pairs).apply rest) = some ((ofPairs pairs).apply w) := by
  obtain ⟨e, member, rfl, found⟩ := find?_opener opener
  have edges := ofPairs_edged edged
  have opened : opens e.word.toList w.toList = true := by simpa using List.find?_some found
  obtain ⟨rest, whole, ends⟩ := opens_iff.mp opened
  have here := find?_eq edges false [] w.toList
  rw [List.head?_nil, Option.any_none, if_neg Bool.false_ne_true, found, Option.map_some, whole,
    List.drop_left] at here
  have scanned := Cursor.scan_found (advances edges) here
  rw [scan_after edged ends, ← whole, ← applyTo_eq_scan edges] at scanned
  have replacement : latest? pairs e.word = some e.replacement := by
    have distinct := Keyed.nodup_ofList Substitution.word pairs
    rw [← ofPairs_entries] at distinct
    rw [← lookup?_ofPairs, lookup?, Keyed.find?_of_mem distinct member]
    rfl
  refine ⟨String.ofList rest, ?_, ?_⟩
  · rw [← String.toList_inj, whole, String.toList_append, String.toList_ofList]
  · rw [replacement, Option.map_some, apply, apply, scanned, String.toList_ofList, String.ofList_append,
      String.ofList_toList]

/-- A listed word becomes the last replacement listed for it exactly if no other word that opens it is
listed before it, or what comes of that one and of the rest happens to be the same. -/
theorem listed_word_iff (edged : ∀ s ∈ pairs, Edged s.word.toList) (listed : ∃ s ∈ pairs, s.word = w) :
    ∃ word rest, opener? pairs w = some word ∧ w = word ++ rest ∧
      (some ((ofPairs pairs).apply w) = latest? pairs w ↔
        word = w ∨ (latest? pairs word).map (· ++ (ofPairs pairs).apply rest) = latest? pairs w) := by
  obtain ⟨word, opener⟩ := Option.isSome_iff_exists.mp (opener?_isSome listed)
  obtain ⟨rest, whole, applied⟩ := apply_of_opener edged opener
  refine ⟨word, rest, opener, whole, ?_⟩
  constructor
  · intro kept
    exact .inr (applied.trans kept)
  · rintro (rfl | same)
    · have nothing : rest = "" :=
        (String.append_right_inj word).mp (whole.symm.trans String.append_empty.symm)
      have empty : (ofPairs pairs).apply "" = "" := by
        rw [apply, applyTo_eq_scan (ofPairs_edged edged)]
        exact congrArg String.ofList (Cursor.scan_nil (find?_gap (ofPairs_edged edged) rfl))
      rw [← applied, nothing, empty]
      simp
    · exact applied.symm.trans same

def contracted : List Substitution := [⟨"i'm", "you are"⟩, ⟨"i", "you"⟩]

theorem contraction_kept : (∀ s ∈ contracted, Edged s.word.toList) ∧
    (∃ s ∈ contracted, s.word = "i'm") ∧
    some ((ofPairs contracted).apply "i'm") = latest? contracted "i'm" := by
  have edged : ∀ s ∈ contracted, Edged s.word.toList := by decide +kernel
  have listed : ∃ s ∈ contracted, s.word = "i'm" := by decide +kernel
  obtain ⟨word, rest, opener, _, kept⟩ := listed_word_iff edged listed
  have first : opener? contracted "i'm" = some "i'm" := by decide +kernel
  exact ⟨edged, listed, kept.mpr (.inl (Option.some.inj (opener.symm.trans first)))⟩

/-- The other way round the contraction is never found. -/
theorem contraction_shadowed : (∀ s ∈ contracted.reverse, Edged s.word.toList) ∧
    (∃ s ∈ contracted.reverse, s.word = "i'm") ∧ latest? contracted.reverse "i'm" = some "you are" ∧
    (ofPairs contracted.reverse).apply "i'm" = "you'm" := by
  decide +kernel

end Colloquy.Substitutions
