import Colloquy.Proofs.Keyed
import Colloquy.Substitution

/-! Tables of substitutions: what is put in for a word is what the table has for it. -/

namespace Colloquy.Substitutions

open Text

/-- What a table has for a word. -/
def lookup? (t : Substitutions) (word : String) : Option String :=
  (t.entries.find? (·.word = word)).map Substitution.replacement

/-- Whether all that a table finds are words that it has something for, which is what it puts in. -/
def Complete (t : Substitutions) : Prop :=
  ∀ nonempty place text stop, find? t.entries nonempty place = some (text, stop) →
    ∃ word, place.skip? word.toList = some stop ∧ (t.lookup? word).map String.toList = some text

theorem put_eq (s : Substitution) (entries : List Substitution) :
    put s entries = Keyed.put Substitution.word s entries := by
  induction entries with
  | nil => rfl
  | cons e rest ih => rw [put, Keyed.put, ih]

/-- The entries of a table made of pairs, by word. -/
theorem ofPairs_entries (pairs : List Substitution) :
    (ofPairs pairs).entries = Keyed.ofList Substitution.word pairs := by
  simp only [ofPairs, put_eq]
  rfl

theorem ofPairs_condensed (pairs : List Substitution) :
    ofPairs (Keyed.condensed Substitution.word pairs) = ofPairs pairs := by
  have same := Keyed.ofList_condensed Substitution.word pairs
  rw [← ofPairs_entries, ← ofPairs_entries] at same
  exact congrArg Substitutions.mk same

theorem wordEnd?_eq_some {word : List Char} {place stop : Cursor}
    (found : wordEnd? word place = some stop) : place.skip? word = some stop := by
  rw [wordEnd?] at found
  split at found
  · split at found
    · split at found
      · next skipped _ => rw [skipped, found]
      · contradiction
    · contradiction
  · contradiction

/-- A table of pairs put in one after the other has what it finds. -/
theorem ofPairs_complete (pairs : List Substitution) : (ofPairs pairs).Complete := by
  intro nonempty place text stop found
  obtain ⟨e, member, fits⟩ := List.exists_of_findSome?_eq_some found
  split at fits
  · contradiction
  · obtain ⟨stop, ends, same⟩ := Option.map_eq_some_iff.mp fits
    cases same
    refine ⟨e.word, wordEnd?_eq_some ends, ?_⟩
    have distinct := Keyed.nodup_ofList Substitution.word pairs
    rw [← ofPairs_entries] at distinct
    rw [lookup?, Keyed.find?_of_mem distinct member]
    rfl

end Colloquy.Substitutions
