import Colloquy.Data

/-! Values of data files: what stands for nothing has no parts, and plain values can be told apart. -/

namespace Colloquy.Data

theorem isTruthy_bare : ∀ value : Data, value.bare.isTruthy = value.isTruthy
  | shared _ value => isTruthy_bare value
  | null | bool _ | int _ | float _ | text _ | bytes _ | stamp _ | pair _ _ | list _ | map _ | set _ =>
    rfl

variable {value : Data}

theorem items?_eq_some {items : List Data} : value.items? = some items ↔ value.bare = .list items := by
  rw [items?]
  split
  · next found same => simp [same]
  · next other => exact iff_of_false nofun fun same => other items same

theorem entries?_eq_some {entries : List (Data × Data)} :
    value.entries? = some entries ↔ value.bare = .map entries := by
  rw [entries?]
  split
  · next found same => simp [same]
  · next other => exact iff_of_false nofun fun same => other entries same

theorem items_eq_nil {items : List Data} (nothing : value.isTruthy = false)
    (apart : value.items? = some items) : items = [] := by
  rw [← isTruthy_bare, items?_eq_some.mp apart] at nothing
  simpa [isTruthy] using nothing

theorem entries_eq_nil {entries : List (Data × Data)} (nothing : value.isTruthy = false)
    (apart : value.entries? = some entries) : entries = [] := by
  rw [← isTruthy_bare, entries?_eq_some.mp apart] at nothing
  simpa [isTruthy] using nothing

/-! Entries by name. -/

/-- A key is the same as a text just if it is that text, in however many places it stands. -/
theorem sameKey_text {key : Data} {name : String} : sameKey key (.text name) = true ↔ key.bare = .text name := by
  have named : (Data.text name).bare = .text name := rfl
  rw [sameKey, named]
  cases key.bare <;> simp [quantity?]

theorem field?_insert_self (name : String) (value : Data) (entries : List (Data × Data)) :
    field? name (insert (.text name) value entries) = some value := by
  rw [field?]
  induction entries with
  | nil => exact if_pos (sameKey_text.mpr rfl)
  | cons entry rest ih =>
    rw [insert]
    split
    · next same => rw [lookup, if_pos same]
    · next different => rw [lookup, if_neg different, ih]

/-- Putting in a value by name leaves the other names alone. -/
theorem field?_insert_of_ne {name other : String} (apart : other ≠ name) (value : Data)
    (entries : List (Data × Data)) :
    field? other (insert (.text name) value entries) = field? other entries := by
  have skipped {key : Data} (same : sameKey key (.text name) = true) : ¬ sameKey key (.text other) = true := by
    rw [sameKey_text] at same ⊢
    exact fun found => apart (Data.text.inj (found.symm.trans same))
  rw [field?, field?]
  induction entries with
  | nil => exact if_neg (skipped (sameKey_text.mpr rfl))
  | cons entry rest ih =>
    rw [insert]
    split
    · next same => rw [lookup, lookup, if_neg (skipped same), if_neg (skipped same)]
    · next different => rw [lookup, lookup, ih]

/-! Plain values. -/

mutual

/-- Whether a value is another one, both of them made of maps, texts, whole numbers and truth values. -/
def isSame : Data → Data → Bool
  | null, null => true
  | bool b, bool c => b == c
  | int i, int j => i == j
  | text s, text t => s == t
  | map entries, map others => areSame entries others
  | _, _ => false

def areSame : List (Data × Data) → List (Data × Data) → Bool
  | [], [] => true
  | (k, v) :: rest, (k', v') :: others => k.isSame k' && v.isSame v' && areSame rest others
  | _, _ => false

end

mutual

theorem eq_of_isSame : ∀ {x y : Data}, x.isSame y = true → x = y
  | null, null, _ => rfl
  | bool _, bool _, same => congrArg bool (beq_iff_eq.mp same)
  | int _, int _, same => congrArg int (beq_iff_eq.mp same)
  | text _, text _, same => congrArg text (beq_iff_eq.mp same)
  | map _, map _, same => congrArg map (eq_of_areSame same)

theorem eq_of_areSame : ∀ {l l' : List (Data × Data)}, areSame l l' = true → l = l'
  | [], [], _ => rfl
  | (_, _) :: _, (_, _) :: _, same => by
    rw [areSame, Bool.and_eq_true, Bool.and_eq_true] at same
    rw [eq_of_isSame same.1.1, eq_of_isSame same.1.2, eq_of_areSame same.2]

end

theorem eq_some_of_isSame {found : Option Data} {y : Data} (same : found.any (·.isSame y) = true) :
    found = some y := by
  obtain ⟨x, rfl, same⟩ := (Option.any_eq_true _ _).mp same
  rw [eq_of_isSame same]

end Colloquy.Data
