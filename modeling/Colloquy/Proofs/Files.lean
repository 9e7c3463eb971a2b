import Colloquy.Files.Basic
import Colloquy.Proofs.Outcome

/-! Files that differ only in what they hold: whatever is looked for stands at the same places. Files that
have grown: whatever stood somewhere still does. -/

namespace Colloquy

namespace Files

variable {fs fs' : Files}

/-- Whether files and directories stand at the same places. -/
def SamePlaces (fs' fs : Files) : Prop :=
  ∀ place, (fs'.entryAt? place).map Entry.isFile = (fs.entryAt? place).map Entry.isFile

namespace SamePlaces

variable (same : fs'.SamePlaces fs)

include same

theorem walk (names : List String) (place : Path) : fs'.walk place names = fs.walk place names := by
  induction names generalizing place with
  | nil => rfl
  | cons name rest ih =>
    have here := same place
    simp only [Files.walk, ih]
    cases found : fs.entryAt? place with
    | none =>
      rw [found, Option.map_none, Option.map_eq_none_iff] at here
      rw [here]
    | some e =>
      obtain ⟨e', found', kind⟩ := Option.map_eq_some_iff.mp (here.trans (congrArg _ found))
      rw [found']
      cases e <;> cases e' <;> first | rfl | cases kind

theorem look (p : Path) : (fs'.look p).map (Option.map Entry.isFile) = (fs.look p).map (Option.map Entry.isFile) := by
  simp only [Files.look, placeOf, same.walk]
  split
  · rfl
  · split
    · next place _ => exact congrArg Except.ok (same place)
    · rfl
    · rfl

theorem has (p : Path) : fs'.has p = fs.has p := by
  have seen (fs : Files) : fs.has p = ((fs.look p).map (Option.map Entry.isFile)).map Option.isSome := by
    rw [Files.has]
    cases fs.look p with
    | error b => rfl
    | ok e => simp [Except.map, bind, Except.bind, pure, Except.pure]
  rw [seen, seen, same.look]

theorem hasFile (p : Path) : fs'.hasFile p = fs.hasFile p := by
  have seen (fs : Files) :
      fs.hasFile p = ((fs.look p).map (Option.map Entry.isFile)).map fun e => e.any id := by
    rw [Files.hasFile]
    cases fs.look p with
    | error b => rfl
    | ok e => simp [Except.map, bind, Except.bind, pure, Except.pure, Option.any_map]
  rw [seen, seen, same.look]

end SamePlaces

theorem SamePlaces.of_texts (p : Path) (s s' : String) :
    (⟨[(p, .text s')]⟩ : Files).SamePlaces ⟨[(p, .text s)]⟩ := by
  intro place
  simp only [Files.entryAt?]
  split
  · rfl
  · by_cases here : p = place <;> simp [here, Entry.isFile]

/-- Whether files and directories still stand where they did. -/
def Grown (fs fs' : Files) : Prop :=
  ∀ place e, fs.entryAt? place = some e → ∃ e', fs'.entryAt? place = some e' ∧ e'.isFile = e.isFile

variable {p place other : Path} {e : Entry} {content : String}

/-- What stands at a place after something has been put somewhere. -/
theorem entryAt?_put (place : Path) (e : Entry) (other : Path) : (fs.put place e).entryAt? other =
    if other.names.all (· == "..") then some .directory
    else if other = place then some e else fs.entryAt? other := by
  rw [entryAt?, entryAt?]
  split
  · rfl
  · rw [put, List.find?_cons]
    by_cases here : other = place
    · simp [here]
    · have kept : (fun old : Path × Entry => decide (decide (old.1 ≠ place) = true ∧ decide (old.1 = other) = true)) =
          fun old => decide (old.1 = other) := by
        funext old
        by_cases found : old.1 = other
        · simp [found, here]
        · simp [found]
      rw [if_neg here, decide_eq_false fun same => here same.symm, List.find?_filter, kept]

/-- The place of an entry that is no directory is not one of those that all others start from. -/
theorem not_all_above (file : fs.entryAt? place ≠ some .directory) :
    ¬ place.names.all (· == "..") = true := by
  intro above
  exact file (if_pos above)

namespace Grown

theorem refl (fs : Files) : fs.Grown fs := fun _ e found => ⟨e, found, rfl⟩

theorem trans {fs₁ fs₂ fs₃ : Files} (first : fs₁.Grown fs₂) (later : fs₂.Grown fs₃) : fs₁.Grown fs₃ := by
  intro place e found
  obtain ⟨e', found', kind⟩ := first place e found
  obtain ⟨e'', found'', kind'⟩ := later place e' found'
  exact ⟨e'', found'', kind'.trans kind⟩

theorem put (fits : ∀ old, fs.entryAt? place = some old → e.isFile = old.isFile) : fs.Grown (fs.put place e) := by
  intro other old found
  rw [entryAt?_put]
  split
  · next above =>
    cases found.symm.trans (if_pos above)
    exact ⟨.directory, rfl, rfl⟩
  · split
    · next here =>
      subst here
      exact ⟨e, rfl, fits old found⟩
    · exact ⟨old, found, rfl⟩

variable (grown : fs.Grown fs')

include grown

theorem directory (found : fs.entryAt? place = some .directory) : fs'.entryAt? place = some .directory := by
  obtain ⟨e', found', kind⟩ := grown place _ found
  cases e' with
  | directory => exact found'
  | text content => contradiction
  | bytes => contradiction

theorem walk {names : List String} {start : Path} (leads : fs.walk start names = .ok place) :
    fs'.walk start names = .ok place := by
  induction names generalizing start with
  | nil => exact leads
  | cons name rest ih =>
    rw [Files.walk] at leads ⊢
    cases found : fs.entryAt? start with
    | none =>
      rw [found] at leads
      contradiction
    | some e =>
      cases e with
      | text content =>
        rw [found] at leads
        contradiction
      | bytes =>
        rw [found] at leads
        contradiction
      | directory =>
        rw [found] at leads
        rw [grown.directory found]
        dsimp only at leads ⊢
        split at leads
        · contradiction
        · next short =>
          rw [if_neg short]
          exact ih leads

theorem placeOf (leads : fs.placeOf p = .ok place) : fs'.placeOf p = .ok place := by
  rw [Files.placeOf] at leads ⊢
  split at leads
  · contradiction
  · next short =>
    rw [if_neg short]
    exact grown.walk leads

theorem hasFile (there : fs.hasFile p = .ok true) : fs'.hasFile p = .ok true := by
  rw [Files.hasFile] at there ⊢
  obtain ⟨seen, looked, isFile⟩ := bind_eq_ok.mp there
  cases seen with
  | none => contradiction
  | some e =>
    have isFile : e.isFile = true := Except.ok.inj isFile
    rw [Files.look] at looked
    split at looked
    · cases looked
    · next usable =>
      split at looked
      · next place leads =>
        obtain ⟨e', found', kind⟩ := grown place e (Except.ok.inj looked)
        rw [Files.look, if_neg usable, grown.placeOf leads]
        dsimp only
        rw [found', ok_bind, Option.any_some, kind, isFile]
        rfl
      · cases looked
      · cases looked

end Grown

/-! Changes of files. -/

/-- The files with a directory at a place, unless one stands there already. -/
def directoryAt (fs : Files) (place : Path) (b : Breakdown) : Except Breakdown Files :=
  match fs.entryAt? place with
  | some .directory => .ok fs
  | some _ => .error b
  | none => .ok (fs.put place .directory)

theorem directoryAt_grown {b : Breakdown} (made : fs.directoryAt place b = .ok fs') : fs.Grown fs' := by
  rw [directoryAt] at made
  split at made
  · cases made
    exact .refl fs
  · contradiction
  · next free =>
    cases made
    refine .put fun old found => ?_
    rw [free] at found
    contradiction

theorem makeDirectoryAt_grown {slashes : Nat} {upwards : List String}
    (made : makeDirectoryAt slashes upwards fs = .ok fs') : fs.Grown fs' := by
  induction upwards generalizing fs' with
  | nil =>
    cases made
    exact .refl fs
  | cons name rest ih =>
    rw [makeDirectoryAt] at made
    dsimp only at made
    split at made
    · exact directoryAt_grown made
    · contradiction
    · contradiction
    · obtain ⟨middle, before, made⟩ := bind_eq_ok.mp made
      split at made
      · exact (ih before).trans (directoryAt_grown made)
      · contradiction

/-- Making a directory moves nothing that stood there. -/
theorem makeDirectory_grown (made : fs.makeDirectory p = .ok fs') : fs.Grown fs' := by
  rw [makeDirectory] at made
  split at made
  · exact makeDirectoryAt_grown made
  · contradiction

theorem target_eq_ok : fs.target p = .ok place ↔
    p.isUsable = true ∧ fs.placeOf p = .ok place ∧ fs.entryAt? place ≠ some .directory := by
  rw [target]
  cases usable : p.isUsable with
  | false => simp
  | true =>
    cases leads : fs.placeOf p with
    | error obstacle => cases obstacle <;> simp
    | ok found =>
      by_cases directory : fs.entryAt? found = some .directory
      · simp only [directory]
        simp only [Bool.not_true, Bool.false_eq_true, if_false, if_true, reduceCtorEq, Except.ok.injEq, true_and,
          false_iff, not_and, not_not]
        rintro rfl
        exact directory
      · simp only [Bool.not_true, Bool.false_eq_true, if_false, if_neg directory, Except.ok.injEq, true_and]
        exact ⟨fun same => ⟨same, same ▸ directory⟩, And.left⟩

/-- A file is written just if its place can be opened, and then it has the new text. -/
theorem write_eq_ok : fs.write p content = .ok fs' ↔
    ∃ place, fs.target p = .ok place ∧ fs' = fs.put place (.text content) := by
  rw [write, bind_eq_ok]
  refine exists_congr fun place => and_congr_right fun _ => ?_
  exact ⟨fun made => (Except.ok.inj made).symm, fun same => congrArg Except.ok same.symm⟩

theorem put_grown (opened : fs.target p = .ok place) (file : e.isFile = true) : fs.Grown (fs.put place e) := by
  obtain ⟨_, _, free⟩ := target_eq_ok.mp opened
  refine .put fun old found => ?_
  cases old with
  | directory => exact absurd found free
  | text content => exact file
  | bytes => exact file

/-- What is put at the place of a file that can be written stands there afterwards. -/
theorem find?_put (opened : fs.target p = .ok place) (file : e.isFile = true) :
    p.isUsable = true ∧ (fs.put place e).placeOf p = .ok place ∧ (fs.put place e).entryAt? place = some e := by
  obtain ⟨usable, leads, free⟩ := target_eq_ok.mp opened
  refine ⟨usable, (put_grown opened file).placeOf leads, ?_⟩
  rw [entryAt?_put, if_neg (not_all_above free), if_pos rfl]

end Files
end Colloquy
