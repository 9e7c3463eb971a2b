import Colloquy.Proofs.Files

/-! Files that hold related texts at the same places. What is done to both keeps them so. -/

namespace Colloquy

/-- Whether two entries are of the same kind and hold related texts. -/
inductive Entry.Like (related : String → String → Prop) : Entry → Entry → Prop
  | directory : Like related .directory .directory
  | text {old new : String} (fits : related old new) : Like related (.text old) (.text new)
  | bytes : Like related .bytes .bytes

theorem Entry.Like.refl {related : String → String → Prop} (each : ∀ text, related text text) (e : Entry) :
    e.Like related e := by
  cases e with
  | directory => exact .directory
  | text content => exact .text (each content)
  | bytes => exact .bytes

/-- Whether a change keeps related texts related. All of them do but those that add something to a text. -/
def Change.Keeps (related : String → String → Prop) : Change → Prop
  | .append _ content => ∀ old new, related old new → related (old ++ content) (new ++ content)
  | _ => True

namespace Files

variable {related : String → String → Prop} {fs fs' : Files} {p place : Path} {e e' : Entry} {b : Breakdown}

/-- Whether files hold related texts, and else the same, at the same places. -/
def Like (related : String → String → Prop) (fs fs' : Files) : Prop :=
  ∀ place, Option.Rel (Entry.Like related) (fs.entryAt? place) (fs'.entryAt? place)

namespace Like

theorem refl (each : ∀ text, related text text) (fs : Files) : fs.Like related fs := by
  intro place
  cases fs.entryAt? place with
  | none => exact .none
  | some e => exact .some (.refl each e)

theorem put (like : fs.Like related fs') (fits : e.Like related e') (place : Path) :
    (fs.put place e).Like related (fs'.put place e') := by
  intro other
  rw [entryAt?_put, entryAt?_put]
  split
  · exact .some .directory
  · split
    · exact .some fits
    · exact like other

variable (like : fs.Like related fs')

include like

theorem seen (place : Path) : (fs.entryAt? place = none ∧ fs'.entryAt? place = none) ∨
    ∃ e e', fs.entryAt? place = some e ∧ fs'.entryAt? place = some e' ∧ e.Like related e' := by
  have here := like place
  generalize fs.entryAt? place = old at here ⊢
  generalize fs'.entryAt? place = new at here ⊢
  cases here with
  | none => exact .inl ⟨rfl, rfl⟩
  | some fits => exact .inr ⟨_, _, rfl, rfl, fits⟩

theorem weaken {wider : String → String → Prop} (wide : ∀ old new, related old new → wider old new) :
    fs.Like wider fs' := by
  intro place
  obtain ⟨old, new⟩ | ⟨e, e', old, new, fits⟩ := like.seen place
  · rw [old, new]
    exact .none
  · rw [old, new]
    cases fits with
    | directory => exact .some .directory
    | text fits => exact .some (.text (wide _ _ fits))
    | bytes => exact .some .bytes

/-- Files that hold related texts stand at the same places. -/
theorem samePlaces : fs'.SamePlaces fs := by
  intro place
  obtain ⟨old, new⟩ | ⟨e, e', old, new, fits⟩ := like.seen place
  · rw [old, new]
  · rw [old, new]
    cases fits <;> rfl

theorem placeOf (p : Path) : fs'.placeOf p = fs.placeOf p := by
  rw [Files.placeOf, Files.placeOf, like.samePlaces.walk]

/-- What stands at a path is missing in both, or alike in both. -/
theorem found (p : Path) : (fs.find? p = none ∧ fs'.find? p = none) ∨
    ∃ e e', fs.find? p = some e ∧ fs'.find? p = some e' ∧ e.Like related e' := by
  rw [Files.find?, Files.find?, like.placeOf]
  cases fs.placeOf p with
  | ok place => exact like.seen place
  | error obstacle => exact .inl ⟨rfl, rfl⟩

theorem directory_iff (place : Path) :
    fs'.entryAt? place = some .directory ↔ fs.entryAt? place = some .directory := by
  obtain ⟨old, new⟩ | ⟨e, e', old, new, fits⟩ := like.seen place
  · rw [old, new]
  · rw [old, new]
    cases fits <;> simp

theorem target (p : Path) : fs'.target p = fs.target p := by
  simp only [Files.target, like.placeOf, like.directory_iff]

theorem directoryAt (place : Path) (b : Breakdown) :
    Matched (Like related) (fs.directoryAt place b) (fs'.directoryAt place b) := by
  rw [Files.directoryAt, Files.directoryAt]
  obtain ⟨old, new⟩ | ⟨e, e', old, new, fits⟩ := like.seen place
  · rw [old, new]
    exact .done (like.put .directory place)
  · rw [old, new]
    cases fits with
    | directory => exact .done like
    | text _ => exact .failed b
    | bytes => exact .failed b

theorem makeDirectoryAt (slashes : Nat) (upwards : List String) :
    Matched (Like related) (Files.makeDirectoryAt slashes upwards fs)
      (Files.makeDirectoryAt slashes upwards fs') := by
  induction upwards with
  | nil => exact .done like
  | cons name rest ih =>
    rw [Files.makeDirectoryAt, Files.makeDirectoryAt, like.placeOf]
    dsimp only
    cases fs.placeOf ⟨slashes, (name :: rest).reverse⟩ with
    | ok place => exact like.directoryAt place _
    | error obstacle =>
      cases obstacle with
      | file => exact .failed _
      | tooLong => exact .failed _
      | missing =>
        refine ih.bind fun middle middle' like => ?_
        rw [like.placeOf]
        cases middle.placeOf ⟨slashes, (name :: rest).reverse⟩ with
        | ok place => exact like.directoryAt place _
        | error _ => exact .failed _

theorem makeDirectory (p : Path) : Matched (Like related) (fs.makeDirectory p) (fs'.makeDirectory p) := by
  rw [Files.makeDirectory, Files.makeDirectory]
  split
  · exact like.makeDirectoryAt _ _
  · exact .failed _

theorem write (each : ∀ text, related text text) (p : Path) (content : String) :
    Matched (Like related) (fs.write p content) (fs'.write p content) := by
  rw [Files.write, Files.write, like.target]
  refine (Matched.eq (fs.target p)).bind fun place place' same => ?_
  cases same
  exact .done (like.put (.text (each content)) place)

theorem append (each : ∀ text, related text text) (p : Path) {content : String}
    (keeps : ∀ old new, related old new → related (old ++ content) (new ++ content)) :
    Matched (Like related) (fs.append p content) (fs'.append p content) := by
  rw [Files.append, Files.append, like.target]
  refine (Matched.eq (fs.target p)).bind fun place place' same => ?_
  cases same
  obtain ⟨old, new⟩ | ⟨e, e', old, new, fits⟩ := like.seen place
  · rw [old, new]
    exact .done (like.put (.text (each content)) place)
  · rw [old, new]
    cases fits with
    | directory => exact .done like
    | text fits => exact .done (like.put (.text (keeps _ _ fits)) place)
    | bytes => exact .done like

/-- A change that keeps related texts related is made to both or refused for both. -/
theorem apply (each : ∀ text, related text text) {c : Change} (keeps : c.Keeps related) :
    Matched (Like related) (fs.apply c) (fs'.apply c) := by
  cases c with
  | makeDirectory p => exact like.makeDirectory p
  | write p content => exact like.write each p content
  | append p content => exact like.append each p keeps

omit like in
/-- Changes that keep related texts related keep the files so. -/
theorem applyAll (like : fs.Like related fs') (each : ∀ text, related text text) {changes : List Change}
    (keeps : ∀ c ∈ changes, c.Keeps related) :
    Matched (Like related) (fs.applyAll changes) (fs'.applyAll changes) := by
  rw [Files.applyAll, Files.applyAll]
  induction changes generalizing fs fs' with
  | nil => exact .done like
  | cons c rest ih =>
    obtain ⟨first, later⟩ := List.forall_mem_cons.mp keeps
    rw [List.foldlM_cons, List.foldlM_cons]
    exact (like.apply each first).bind fun _ _ like => ih like later

end Like
end Files
end Colloquy
