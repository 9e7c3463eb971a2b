import Mathlib.Data.List.Basic
import Mathlib.Data.List.Induction

/-! Lists in which a key stands once. What is put in takes the place of what has its key, so that of
all that is put in, every key keeps its first place and what came for it last. -/

namespace Colloquy.Keyed

variable {α κ : Type} [DecidableEq κ] {key : α → κ} {a : α} {k : κ} {l : List α}

/-- A list with a thing put in: in the place of its key if the key has one, else at the end. -/
def put (key : α → κ) (a : α) : List α → List α
  | [] => [a]
  | b :: rest => if key b = key a then a :: rest else b :: put key a rest

def ofList (key : α → κ) (l : List α) : List α := l.foldl (fun made a => put key a made) []

/-- The list without a key repeated: every key where it comes first, with what comes for it last. -/
def condensed (key : α → κ) (l : List α) : List α :=
  (l.map key).eraseDups.filterMap fun k => l.reverse.find? (key · = k)

theorem keys_put : (put key a l).map key = if key a ∈ l.map key then l.map key else l.map key ++ [key a] := by
  induction l with
  | nil => simp [put]
  | cons b rest ih =>
    rw [put]
    by_cases same : key b = key a
    · simp [same]
    · rw [if_neg same, List.map_cons, ih]
      simp only [List.map_cons, List.mem_cons, Ne.symm same, false_or]
      split <;> simp

theorem put_fresh (fresh : key a ∉ l.map key) : put key a l = l ++ [a] := by
  induction l with
  | nil => rfl
  | cons b rest ih =>
    obtain ⟨other, fresh⟩ := not_or.mp (mt List.mem_cons.mpr fresh)
    rw [put, if_neg (Ne.symm other), ih fresh, List.cons_append]

theorem nodup_put (distinct : (l.map key).Nodup) : ((put key a l).map key).Nodup := by
  rw [keys_put]
  split
  · exact distinct
  · next fresh => exact List.nodup_append.mpr ⟨distinct, by simp, by simpa using fresh⟩

/-- What a key has after something has been put in. -/
theorem find?_put :
    (put key a l).find? (key · = k) = if key a = k then some a else l.find? (key · = k) := by
  induction l with
  | nil => by_cases asked : key a = k <;> simp [put, asked]
  | cons b rest ih =>
    rw [put]
    by_cases same : key b = key a
    · rw [if_pos same]
      by_cases asked : key a = k
      · simp [asked]
      · have other : key b ≠ k := same ▸ asked
        simp [asked, other]
    · rw [if_neg same, List.find?_cons, ih]
      by_cases asked : key a = k
      · have other : key b ≠ k := fun found => same (found.trans asked.symm)
        simp [asked, other]
      · simp [asked, List.find?_cons]

theorem find?_of_mem (distinct : (l.map key).Nodup) (member : a ∈ l) :
    l.find? (key · = key a) = some a := by
  induction l with
  | nil => contradiction
  | cons b rest ih =>
    obtain ⟨fresh, distinct⟩ := List.nodup_cons.mp distinct
    rcases List.mem_cons.mp member with rfl | member
    · simp
    · have other : key b ≠ key a := by
        intro same
        exact fresh (same ▸ List.mem_map_of_mem member)
      simpa [other] using ih distinct member

/-- Where no key is repeated, a list is known from its keys and from what is found for them. -/
theorem eq_filterMap_find? (distinct : (l.map key).Nodup) :
    l = (l.map key).filterMap fun k => l.find? (key · = k) := by
  have found : ∀ a ∈ l, l.find? (key · = key a) = some a := fun a member => find?_of_mem distinct member
  rw [List.filterMap_map]
  exact ((List.filterMap_congr found).trans List.filterMap_some).symm

theorem ofList_concat : ofList key (l ++ [a]) = put key a (ofList key l) := by
  simp only [ofList, List.foldl_concat]

theorem nodup_ofList (key : α → κ) (l : List α) : ((ofList key l).map key).Nodup := by
  induction l using List.reverseRecOn with
  | nil => exact List.nodup_nil
  | append_singleton l a ih =>
    rw [ofList_concat]
    exact nodup_put ih

theorem keys_ofList (l : List α) : (ofList key l).map key = (l.map key).eraseDups := by
  induction l using List.reverseRecOn with
  | nil => rfl
  | append_singleton l a ih =>
    rw [ofList_concat, keys_put, ih, List.map_append, List.eraseDups_append, List.map_singleton]
    by_cases seen : key a ∈ l.map key
    · have nothing : [key a].removeAll (l.map key) = [] := by simpa [List.removeAll] using seen
      rw [if_pos (List.mem_eraseDups.mpr seen), nothing]
      exact (List.append_nil _).symm
    · have one : [key a].removeAll (l.map key) = [key a] := by simpa [List.removeAll] using seen
      rw [if_neg (mt List.mem_eraseDups.mp seen), one]
      rfl

/-- Of the keys that pass a test the same one is the first. A key that is put in again has failed the
test before. -/
theorem find?_keys_ofList (key : α → κ) (test : κ → Bool) (l : List α) :
    ((ofList key l).map key).find? test = (l.map key).find? test := by
  induction l using List.reverseRecOn with
  | nil => rfl
  | append_singleton l a ih =>
    rw [ofList_concat, keys_put, List.map_append, List.map_singleton, List.find?_append]
    split
    · next seen =>
      rw [ih]
      cases found : (l.map key).find? test with
      | some k => rfl
      | none =>
        rw [← ih, List.find?_eq_none] at found
        simp [found _ seen]
    · rw [List.find?_append, ih]

/-- What a key has in a list without repeated keys is what came last for it. -/
theorem find?_ofList (l : List α) :
    (ofList key l).find? (key · = k) = l.reverse.find? (key · = k) := by
  induction l using List.reverseRecOn with
  | nil => rfl
  | append_singleton l a ih =>
    rw [ofList_concat, find?_put, ih, List.reverse_concat, List.find?_cons]
    by_cases asked : key a = k <;> simp [asked]

theorem ofList_eq_condensed (l : List α) : ofList key l = condensed key l := by
  have known := eq_filterMap_find? (nodup_ofList key l)
  simp only [keys_ofList, find?_ofList] at known
  exact known

theorem ofList_of_nodup (distinct : (l.map key).Nodup) : ofList key l = l := by
  induction l using List.reverseRecOn with
  | nil => rfl
  | append_singleton l a ih =>
    rw [List.map_append, List.nodup_append] at distinct
    obtain ⟨before, _, apart⟩ := distinct
    have fresh : key a ∉ l.map key := fun member => apart _ member _ (List.mem_singleton_self _) rfl
    rw [ofList_concat, ih before, put_fresh fresh]

theorem ofList_condensed (key : α → κ) (l : List α) : ofList key (condensed key l) = ofList key l := by
  rw [← ofList_eq_condensed]
  exact ofList_of_nodup (nodup_ofList key l)

end Colloquy.Keyed
