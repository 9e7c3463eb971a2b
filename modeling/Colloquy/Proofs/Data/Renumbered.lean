import Colloquy.Script.OfData
import Colloquy.Yaml.Print
import Mathlib.Logic.Embedding.Basic

/-! Values under other marks. What looks at a value can tell its marks apart, but cannot tell what marks they
are: where different marks stay different, it finds the same. -/

namespace Colloquy

/-- Another mark for each mark, so that different ones stay different. -/
abbrev Data.Renumbering := Data.Mark ↪ Data.Mark

namespace Data

mutual

/-- A value under other marks, everything inside it included. -/
def renumbered (ρ : Renumbering) : Data → Data
  | pair first second => pair (first.renumbered ρ) (second.renumbered ρ)
  | list items => list (renumberedItems ρ items)
  | map entries => map (renumberedEntries ρ entries)
  | set members => set (renumberedItems ρ members)
  | shared mark value => shared (ρ mark) (value.renumbered ρ)
  | value => value

def renumberedItems (ρ : Renumbering) : List Data → List Data
  | [] => []
  | x :: rest => x.renumbered ρ :: renumberedItems ρ rest

def renumberedEntries (ρ : Renumbering) : List (Data × Data) → List (Data × Data)
  | [] => []
  | (k, v) :: rest => (k.renumbered ρ, v.renumbered ρ) :: renumberedEntries ρ rest

end

variable {ρ : Renumbering} {value : Data}

theorem renumberedItems_eq_map (items : List Data) : renumberedItems ρ items = items.map (renumbered ρ) := by
  induction items with
  | nil => rfl
  | cons x rest ih => rw [renumberedItems, ih, List.map_cons]

theorem renumberedEntries_eq_map (entries : List (Data × Data)) :
    renumberedEntries ρ entries = entries.map (Prod.map (renumbered ρ) (renumbered ρ)) := by
  induction entries with
  | nil => rfl
  | cons entry rest ih => rw [renumberedEntries, ih, List.map_cons, Prod.map]

mutual

theorem renumbered_refl : ∀ value : Data, value.renumbered (.refl _) = value
  | null | bool _ | int _ | float _ | text _ | bytes _ | stamp _ => rfl
  | pair first second => by rw [renumbered, renumbered_refl first, renumbered_refl second]
  | list items => by rw [renumbered, renumberedItems_refl items]
  | map entries => by rw [renumbered, renumberedEntries_refl entries]
  | set members => by rw [renumbered, renumberedItems_refl members]
  | shared mark value => by rw [renumbered, renumbered_refl value, Function.Embedding.refl_apply]

theorem renumberedItems_refl : ∀ items : List Data, renumberedItems (.refl _) items = items
  | [] => rfl
  | x :: rest => by rw [renumberedItems, renumbered_refl x, renumberedItems_refl rest]

theorem renumberedEntries_refl : ∀ entries : List (Data × Data), renumberedEntries (.refl _) entries = entries
  | [] => rfl
  | (k, v) :: rest => by
    rw [renumberedEntries, renumbered_refl k, renumbered_refl v, renumberedEntries_refl rest]

end

theorem bare_renumbered : ∀ value : Data, (value.renumbered ρ).bare = value.bare.renumbered ρ
  | shared _ value => bare_renumbered value
  | null | bool _ | int _ | float _ | text _ | bytes _ | stamp _ | pair _ _ | list _ | map _ | set _ => rfl

@[simp] theorem isTruthy_renumbered : ∀ value : Data, (value.renumbered ρ).isTruthy = value.isTruthy
  | shared _ value => isTruthy_renumbered value
  | list [] | map [] | set [] => rfl
  | list (_ :: _) | map (_ :: _) | set (_ :: _) => rfl
  | null | bool _ | int _ | float _ | text _ | bytes _ | stamp _ | pair _ _ => rfl

@[simp] theorem kindName_renumbered : ∀ value : Data, (value.renumbered ρ).kindName = value.kindName
  | shared _ value => kindName_renumbered value
  | null | bool _ | int _ | float _ | text _ | bytes _ | stamp _ | pair _ _ | list _ | map _ | set _ => rfl

/-! Keys. -/

@[simp] theorem sameKey_renumbered (x y : Data) : sameKey (x.renumbered ρ) (y.renumbered ρ) = sameKey x y := by
  rw [sameKey, sameKey, bare_renumbered, bare_renumbered]
  cases x.bare <;> cases y.bare <;> rfl

theorem lookup_renumbered (key : Data) (entries : List (Data × Data)) :
    lookup (key.renumbered ρ) (renumberedEntries ρ entries) = (lookup key entries).map (renumbered ρ) := by
  induction entries with
  | nil => rfl
  | cons entry rest ih =>
    rw [renumberedEntries, lookup, lookup, sameKey_renumbered, ih]
    split <;> rfl

@[simp] theorem field?_renumbered (name : String) (entries : List (Data × Data)) :
    field? name (renumberedEntries ρ entries) = (field? name entries).map (renumbered ρ) :=
  lookup_renumbered (.text name) entries

/-! Parts of values. -/

@[simp] theorem entries?_renumbered (value : Data) :
    (value.renumbered ρ).entries? = value.entries?.map (renumberedEntries ρ) := by
  rw [entries?, entries?, bare_renumbered]
  cases value.bare <;> rfl

@[simp] theorem items?_renumbered (value : Data) :
    (value.renumbered ρ).items? = value.items?.map (renumberedItems ρ) := by
  rw [items?, items?, bare_renumbered]
  cases value.bare <;> rfl

@[simp] theorem two?_renumbered (value : Data) :
    (value.renumbered ρ).two? = value.two?.map (Prod.map (renumbered ρ) (renumbered ρ)) := by
  rw [two?, two?, bare_renumbered]
  rcases value.bare with _ | _ | _ | _ | _ | _ | _ | _ | (_ | ⟨_, _ | ⟨_, _ | _⟩⟩) | _ | _ | _ <;> rfl

theorem at?_renumbered (index : Nat) (value : Data) :
    (value.renumbered ρ).at? index = (value.at? index).map (renumbered ρ) := by
  have found (items : List Data) (fault : EntryFault) :
      ((items.map (renumbered ρ))[index]?).elim (.error fault) .ok =
        ((items[index]?).elim (.error fault) .ok : Except EntryFault Data).map (renumbered ρ) := by
    rw [List.getElem?_map]
    cases items[index]? <;> rfl
  rw [at?, at?, bare_renumbered, kindName_renumbered]
  cases value.bare with
  | list items =>
    dsimp only [renumbered]
    rw [renumberedItems_eq_map]
    exact found items _
  | pair first second => exact found [first, second] _
  | text s =>
    dsimp only [renumbered]
    cases s.toList[index]? <;> rfl
  | bytes bs =>
    dsimp only [renumbered]
    cases bs[index]? <;> rfl
  | map entries =>
    have same : lookup (.int index) (renumberedEntries ρ entries) = (lookup (.int index) entries).map (renumbered ρ) :=
      lookup_renumbered (.int index) entries
    dsimp only [renumbered]
    rw [same]
    cases lookup (.int index) entries <;> rfl
  | _ => rfl

theorem renumbered_ofChar (c : Char) : (ofChar c).renumbered ρ = ofChar c := rfl

theorem parts?_renumbered (value : Data) :
    (value.renumbered ρ).parts? = value.parts?.map (renumberedItems ρ) := by
  have alone (items : List Data) (plain : ∀ x ∈ items, x.renumbered ρ = x) :
      (.ok items : Except EntryFault (List Data)) = (Except.ok items).map (renumberedItems ρ) := by
    rw [Except.map, renumberedItems_eq_map, List.map_congr_left plain, List.map_id']
  rw [parts?, parts?, bare_renumbered, kindName_renumbered]
  cases value.bare with
  | text s => exact alone _ (by simp [renumbered_ofChar])
  | bytes bs => exact alone _ (by simp [ofByte, renumbered])
  | map entries =>
    dsimp only [renumbered]
    rw [Except.map, renumberedItems_eq_map, renumberedEntries_eq_map, List.map_map, List.map_map]
    rfl
  | _ => rfl

@[simp] theorem allTexts?_renumbered (items : List Data) : allTexts? (renumberedItems ρ items) = allTexts? items := by
  induction items with
  | nil => rfl
  | cons x rest ih =>
    cases x with
    | text s => simp only [renumberedItems, renumbered, allTexts?, ih]
    | _ => rfl

/-! Texts of values. -/

theorem contains_renumbered (marks : List Mark) (mark : Mark) :
    (marks.map ρ).contains (ρ mark) = marks.contains mark := by
  simp [List.contains_eq_mem]

mutual

theorem shownIn_renumbered : ∀ (value : Data) (around : List Mark),
    (value.renumbered ρ).shownIn (around.map ρ) = value.shownIn around
  | null, _ | bool _, _ | int _, _ | float _, _ | text _, _ | bytes _, _ | stamp _, _ => rfl
  | pair first second, around => by
    rw [renumbered, shownIn, shownIn, shownIn_renumbered first, shownIn_renumbered second]
  | list items, around => by rw [renumbered, shownIn, shownIn, shownItems_renumbered items]
  | map entries, around => by rw [renumbered, shownIn, shownIn, shownEntries_renumbered entries]
  | set members, around => by rw [renumbered, shownIn, shownIn, shownItems_renumbered members]
  | shared mark value, around => by
    have hole : (value.renumbered ρ).hole = value.hole := by cases value <;> rfl
    rw [renumbered, shownIn, shownIn, contains_renumbered, hole, ← List.map_cons, shownIn_renumbered value]

theorem shownItems_renumbered : ∀ (items : List Data) (around : List Mark),
    shownItems (around.map ρ) (renumberedItems ρ items) = shownItems around items
  | [], _ => rfl
  | x :: rest, around => by
    rw [renumberedItems, shownItems, shownItems, shownIn_renumbered x, shownItems_renumbered rest]

theorem shownEntries_renumbered : ∀ (entries : List (Data × Data)) (around : List Mark),
    shownEntries (around.map ρ) (renumberedEntries ρ entries) = shownEntries around entries
  | [], _ => rfl
  | (k, v) :: rest, around => by
    rw [renumberedEntries, shownEntries, shownEntries, shownIn_renumbered k, shownIn_renumbered v,
      shownEntries_renumbered rest]

end

@[simp] theorem shown_renumbered (value : Data) : (value.renumbered ρ).shown = value.shown :=
  shownIn_renumbered value []

mutual

theorem isShowableIn_renumbered : ∀ (value : Data) (around : List Mark),
    (value.renumbered ρ).isShowableIn (around.map ρ) = value.isShowableIn around
  | null, _ | bool _, _ | int _, _ | float _, _ | text _, _ | bytes _, _ | stamp _, _ => rfl
  | pair first second, around => by
    rw [renumbered, isShowableIn, isShowableIn, isShowableIn_renumbered first, isShowableIn_renumbered second]
  | list items, around => by rw [renumbered, isShowableIn, isShowableIn, areShowable_renumbered items]
  | map entries, around => by rw [renumbered, isShowableIn, isShowableIn, areShowableEntries_renumbered entries]
  | set members, around => by rw [renumbered, isShowableIn, isShowableIn, areShowable_renumbered members]
  | shared mark value, around => by
    rw [renumbered, isShowableIn, isShowableIn, contains_renumbered, ← List.map_cons, isShowableIn_renumbered value]

theorem areShowable_renumbered : ∀ (items : List Data) (around : List Mark),
    areShowable (around.map ρ) (renumberedItems ρ items) = areShowable around items
  | [], _ => rfl
  | x :: rest, around => by
    rw [renumberedItems, areShowable, areShowable, isShowableIn_renumbered x, areShowable_renumbered rest]

theorem areShowableEntries_renumbered : ∀ (entries : List (Data × Data)) (around : List Mark),
    areShowableEntries (around.map ρ) (renumberedEntries ρ entries) = areShowableEntries around entries
  | [], _ => rfl
  | (k, v) :: rest, around => by
    rw [renumberedEntries, areShowableEntries, areShowableEntries, isShowableIn_renumbered k,
      isShowableIn_renumbered v, areShowableEntries_renumbered rest]

end

@[simp] theorem isShowable_renumbered (value : Data) : (value.renumbered ρ).isShowable = value.isShowable :=
  isShowableIn_renumbered value []

@[simp] theorem plain_renumbered (value : Data) : (value.renumbered ρ).plain = value.plain := by
  rw [plain, plain, bare_renumbered, shown_renumbered]
  cases value.bare <;> rfl

@[simp] theorem plain?_renumbered (value : Data) : (value.renumbered ρ).plain? = value.plain? := by
  rw [plain?, plain?, isShowable_renumbered, plain_renumbered]

/-! Values taken out of all the places where they stand. -/

mutual

theorem isEndlessIn_renumbered : ∀ (value : Data) (around : List Mark),
    (value.renumbered ρ).isEndlessIn (around.map ρ) = value.isEndlessIn around
  | null, _ | bool _, _ | int _, _ | float _, _ | text _, _ | bytes _, _ | stamp _, _ => rfl
  | pair first second, around => by
    rw [renumbered, isEndlessIn, isEndlessIn, isEndlessIn_renumbered first, isEndlessIn_renumbered second]
  | list items, around => by rw [renumbered, isEndlessIn, isEndlessIn, areEndless_renumbered items]
  | map entries, around => by rw [renumbered, isEndlessIn, isEndlessIn, areEndlessEntries_renumbered entries]
  | set members, around => by rw [renumbered, isEndlessIn, isEndlessIn, areEndless_renumbered members]
  | shared mark value, around => by
    rw [renumbered, isEndlessIn, isEndlessIn, contains_renumbered, ← List.map_cons, isEndlessIn_renumbered value]

theorem areEndless_renumbered : ∀ (items : List Data) (around : List Mark),
    areEndless (around.map ρ) (renumberedItems ρ items) = areEndless around items
  | [], _ => rfl
  | x :: rest, around => by
    rw [renumberedItems, areEndless, areEndless, isEndlessIn_renumbered x, areEndless_renumbered rest]

theorem areEndlessEntries_renumbered : ∀ (entries : List (Data × Data)) (around : List Mark),
    areEndlessEntries (around.map ρ) (renumberedEntries ρ entries) = areEndlessEntries around entries
  | [], _ => rfl
  | (k, v) :: rest, around => by
    rw [renumberedEntries, areEndlessEntries, areEndlessEntries, isEndlessIn_renumbered k,
      isEndlessIn_renumbered v, areEndlessEntries_renumbered rest]

end

@[simp] theorem isEndless_renumbered (value : Data) : (value.renumbered ρ).isEndless = value.isEndless :=
  isEndlessIn_renumbered value []

mutual

@[simp] theorem unmarked_renumbered : ∀ value : Data, (value.renumbered ρ).unmarked = value.unmarked
  | null | bool _ | int _ | float _ | text _ | bytes _ | stamp _ => rfl
  | pair first second => by
    rw [renumbered, unmarked, unmarked, unmarked_renumbered first, unmarked_renumbered second]
  | list items => by rw [renumbered, unmarked, unmarked, unmarkedItems_renumbered items]
  | map entries => by rw [renumbered, unmarked, unmarked, unmarkedEntries_renumbered entries]
  | set members => by rw [renumbered, unmarked, unmarked, unmarkedItems_renumbered members]
  | shared mark value => by rw [renumbered, unmarked, unmarked, unmarked_renumbered value]

theorem unmarkedItems_renumbered : ∀ items : List Data, unmarkedItems (renumberedItems ρ items) = unmarkedItems items
  | [] => rfl
  | x :: rest => by
    rw [renumberedItems, unmarkedItems, unmarkedItems, unmarked_renumbered x, unmarkedItems_renumbered rest]

theorem unmarkedEntries_renumbered : ∀ entries : List (Data × Data),
    unmarkedEntries (renumberedEntries ρ entries) = unmarkedEntries entries
  | [] => rfl
  | (k, v) :: rest => by
    rw [renumberedEntries, unmarkedEntries, unmarkedEntries, unmarked_renumbered k, unmarked_renumbered v,
      unmarkedEntries_renumbered rest]

end

mutual

theorem renumbered_unmarked : ∀ value : Data, value.unmarked.renumbered ρ = value.unmarked
  | null | bool _ | int _ | float _ | text _ | bytes _ | stamp _ => rfl
  | pair first second => by rw [unmarked, renumbered, renumbered_unmarked first, renumbered_unmarked second]
  | list items => by rw [unmarked, renumbered, renumberedItems_unmarked items]
  | map entries => by rw [unmarked, renumbered, renumberedEntries_unmarked entries]
  | set members => by rw [unmarked, renumbered, renumberedItems_unmarked members]
  | shared _ value => renumbered_unmarked value

theorem renumberedItems_unmarked : ∀ items : List Data, renumberedItems ρ (unmarkedItems items) = unmarkedItems items
  | [] => rfl
  | x :: rest => by rw [unmarkedItems, renumberedItems, renumbered_unmarked x, renumberedItems_unmarked rest]

theorem renumberedEntries_unmarked : ∀ entries : List (Data × Data),
    renumberedEntries ρ (unmarkedEntries entries) = unmarkedEntries entries
  | [] => rfl
  | (k, v) :: rest => by
    rw [unmarkedEntries, renumberedEntries, renumbered_unmarked k, renumbered_unmarked v,
      renumberedEntries_unmarked rest]

end

end Data

/-! Values as they are written. -/

namespace Yaml

open Data

variable {ρ : Renumbering}

def Census.renumbered (ρ : Renumbering) (c : Census) : Census := ⟨c.met.map ρ, c.again.map ρ⟩

namespace Census

theorem meet_renumbered (c : Census) (mark : Mark) :
    (c.renumbered ρ).meet (ρ mark) = (c.meet mark).renumbered ρ := by
  simp only [meet, renumbered, contains_renumbered]
  split
  · rfl
  · split
    · rfl
    · simp only [List.map_append, List.map_cons, List.map_nil]

mutual

theorem look_renumbered : ∀ (value : Data) (c : Census),
    (c.renumbered ρ).look (value.renumbered ρ) = (c.look value).renumbered ρ
  | .null, _ | .bool _, _ | .int _, _ | .float _, _ | .text _, _ | .bytes _, _ | .stamp _, _ => rfl
  | .pair first second, c => by
    rw [Data.renumbered, look, look, look_renumbered first, look_renumbered second]
  | .list items, c => by rw [Data.renumbered, look, look, lookItems_renumbered items]
  | .map entries, c => by rw [Data.renumbered, look, look, lookEntries_renumbered entries]
  | .set members, c => by rw [Data.renumbered, look, look, lookItems_renumbered members]
  | .shared mark value, c => by
    have met : (c.renumbered ρ).met.contains (ρ mark) = c.met.contains mark := contains_renumbered c.met mark
    rw [Data.renumbered, look, look, met, meet_renumbered, look_renumbered value]
    split <;> rfl

theorem lookItems_renumbered : ∀ (items : List Data) (c : Census),
    (c.renumbered ρ).lookItems (renumberedItems ρ items) = (c.lookItems items).renumbered ρ
  | [], _ => rfl
  | x :: rest, c => by
    rw [renumberedItems, lookItems, lookItems, look_renumbered x, lookItems_renumbered rest]

theorem lookEntries_renumbered : ∀ (entries : List (Data × Data)) (c : Census),
    (c.renumbered ρ).lookEntries (renumberedEntries ρ entries) = (c.lookEntries entries).renumbered ρ
  | [], _ => rfl
  | (k, v) :: rest, c => by
    rw [renumberedEntries, lookEntries, lookEntries, look_renumbered k, look_renumbered v,
      lookEntries_renumbered rest]

end

theorem name?_renumbered (c : Census) (mark : Mark) : (c.renumbered ρ).name? (ρ mark) = c.name? mark := by
  have place (marks : List Mark) : (marks.map ρ).idxOf? (ρ mark) = marks.idxOf? mark := by
    rw [List.idxOf?, List.idxOf?, List.findIdx?_map]
    refine congrArg (List.findIdx? · marks) (funext fun other => ?_)
    exact Bool.eq_iff_iff.mpr (by rw [Function.comp_apply, beq_iff_eq, beq_iff_eq, ρ.injective.eq_iff])
  exact congrArg (Option.map (· + 1)) (place c.again)

end Census

namespace Outline

variable {α β : Type}

/-- Whether a step of outlining does under other marks what another one does. -/
def Follows (ρ : Renumbering) (x y : Outliner α) : Prop :=
  ∀ marks, y.run (marks.map ρ) = ((x.run marks).1, (x.run marks).2.map ρ)

namespace Follows

theorem done (a : α) : Follows ρ (pure a) (pure a) := fun _ => rfl

theorem bind {x y : Outliner α} {f g : α → Outliner β} (first : Follows ρ x y) (next : ∀ a, Follows ρ (f a) (g a)) :
    Follows ρ (x >>= f) (y >>= g) := by
  intro marks
  have same := next (x.run marks).1 (x.run marks).2
  rw [StateT.run_bind, first marks]
  exact same

theorem read {f g : List Mark → Outliner α} (next : ∀ marks, Follows ρ (f marks) (g (marks.map ρ))) :
    Follows ρ (get >>= f) (get >>= g) := fun marks => next marks marks

theorem put (mark : Mark) : Follows ρ (modify (mark :: ·)) (modify (ρ mark :: ·)) := fun _ => rfl

end Follows

mutual

theorem ofNamed_renumbered (c : Census) : ∀ (value : Data) (name : Option Nat),
    Follows ρ (ofNamed c name value) (ofNamed (c.renumbered ρ) name (value.renumbered ρ))
  | .null, _ | .bool _, _ | .int _, _ | .float _, _ | .text _, _ | .bytes _, _ | .stamp _, _ => .done _
  | .pair first second, _ =>
    (ofNamed_renumbered c first none).bind fun _ => (ofNamed_renumbered c second none).bind fun _ => .done _
  | .list items, _ => (ofItems_renumbered c items).bind fun _ => .done _
  | .map entries, _ => (ofEntries_renumbered c entries).bind fun _ => .done _
  | .set members, _ => (ofItems_renumbered c members).bind fun _ => .done _
  | .shared mark value, name => by
    refine Follows.read fun marks => ?_
    rw [contains_renumbered, Census.name?_renumbered]
    split
    · exact .done _
    · exact (Follows.put mark).bind fun _ => ofNamed_renumbered c value (c.name? mark)

theorem ofItems_renumbered (c : Census) : ∀ items : List Data,
    Follows ρ (ofItems c items) (ofItems (c.renumbered ρ) (renumberedItems ρ items))
  | [] => .done _
  | x :: rest => (ofNamed_renumbered c x none).bind fun _ => (ofItems_renumbered c rest).bind fun _ => .done _

theorem ofEntries_renumbered (c : Census) : ∀ entries : List (Data × Data),
    Follows ρ (ofEntries c entries) (ofEntries (c.renumbered ρ) (renumberedEntries ρ entries))
  | [] => .done _
  | (k, v) :: rest =>
    (ofNamed_renumbered c k none).bind fun _ => (ofNamed_renumbered c v none).bind fun _ =>
      (ofEntries_renumbered c rest).bind fun _ => .done _

end

theorem entriesOf_renumbered (entries : List (Data × Data)) :
    entriesOf (renumberedEntries ρ entries) = entriesOf entries := by
  have census : Census.lookEntries ⟨[], []⟩ (renumberedEntries ρ entries) =
      (Census.lookEntries ⟨[], []⟩ entries).renumbered ρ := Census.lookEntries_renumbered entries ⟨[], []⟩
  have outlined : Follows ρ _ _ := ofEntries_renumbered (Census.lookEntries ⟨[], []⟩ entries) entries
  rw [entriesOf, entriesOf, census]
  have same := congrArg Prod.fst (outlined [])
  exact same

end Outline

@[simp] theorem write?_renumbered (entries : List (Data × Data)) :
    write? (renumberedEntries ρ entries) = write? entries := by
  rw [write?, write?, Outline.entriesOf_renumbered]

end Yaml
end Colloquy
