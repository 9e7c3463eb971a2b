import Colloquy.Proofs.Files
import Colloquy.Proofs.Settings.Renumbered

/-! Keys in a file of settings that name no setting. Most of them are passed over; those that are no texts
and a few names are not. -/

namespace Colloquy

namespace Settings

open Data (Renumbering renumberedEntries)

variable {env : Environment} {fs fs' : Files} {given : Option String} {useVariables : Bool} {part : Part}
  {key : Data} {entries entries' : List (Data × Data)} {ρ : Renumbering}

def namesOf : Part → List String
  | .engine => EngineSettings.names
  | .script => ["path", "seed"]
  | .logging => ["level", "json_format", "log_dir"]

/-- Whether a key names a setting of a part. -/
def Known (part : Part) (key : Data) : Prop := ∃ name ∈ namesOf part, key = .text name

/-- The names that something is done about though no setting has them. -/
def reserved : List String := ["__class__", "__weakref__", "__dict__", "validate", listingName]

/-- Whether a key is a name about which nothing is done if no setting has it. -/
def Ordinary (key : Data) : Prop := ∃ name, key = .text name ∧ name ∉ reserved

/-- Whether the entries of a file are those of another, less a key of a part. -/
inductive Without (part : Part) (key : Data) (entries : List (Data × Data)) : List (Data × Data) → Prop
  | less {value block : Data} {before after : List (Data × Data)}
    (found : Data.field? (partName part) entries = some block)
    (map : block.entries? = some (before ++ (key, value) :: after)) :
    Without part key entries (Data.insert (.text (partName part)) (.map (before ++ after)) entries)

/-! What is taken over of a file with a key and without it. -/

/-- A setting can be set just if it is one of its part. -/
theorem set?_isSome (s : Settings) (part : Part) (name : String) (value : Data) :
    (s.set? part name value).isSome = true ↔ name ∈ namesOf part := by
  cases part with
  | engine =>
    unfold set? EngineSettings.set?
    rw [Option.isSome_map]
    split <;> simp_all [namesOf, EngineSettings.names]
  | script =>
    unfold set? ScriptSettings.set?
    rw [Option.isSome_map]
    split <;> simp_all [namesOf]
  | logging =>
    unfold set? LogSettings.set?
    rw [Option.isSome_map]
    split <;> simp_all [namesOf]

/-- An entry with an ordinary key that names no setting changes nothing. -/
theorem setEntry_ordinary (unknown : ¬ Known part key) (ordinary : Ordinary key) (s : Settings) (value : Data) :
    setEntry part s (key, value) = .ok s := by
  obtain ⟨name, rfl, free⟩ := ordinary
  have none : s.set? part name value = none := by
    rw [← Option.not_isSome_iff_eq_none, set?_isSome]
    exact fun member => unknown ⟨name, member, rfl⟩
  simp only [reserved, List.mem_cons, List.not_mem_nil, or_false, not_or] at free
  obtain ⟨notKind, notReference, notWhole, notCheck, notListing⟩ := free
  rw [setEntry_text, if_neg notKind, if_neg notReference, if_neg notWhole, assignEntry, if_neg notCheck,
    if_neg notListing, none]
  rfl

theorem partName_injective {p q : Part} (same : partName p = partName q) : p = q := by
  cases p <;> cases q <;> first | rfl | exact absurd same (by decide)

theorem setPart_of_map {block : Data} {settings : List (Data × Data)}
    (found : Data.field? (partName part) entries = some block) (map : block.entries? = some settings)
    (s : Settings) : setPart entries s part = (settings.foldlM (setEntry part) s).mapError .breakdown := by
  rw [setPart, found, Option.getD_some]
  cases truthy : block.isTruthy with
  | true =>
    rw [map]
    rfl
  | false =>
    rw [Data.entries_eq_nil truthy map]
    rfl

theorem setPart_without (unknown : ¬ Known part key) (ordinary : Ordinary key)
    (without : Without part key entries entries') (s : Settings) (other : Part) :
    setPart entries' s other = setPart entries s other := by
  cases without with
  | @less value block before after found map =>
    by_cases same : other = part
    · subst same
      have passed : (before ++ (key, value) :: after).foldlM (setEntry other) s =
          (before ++ after).foldlM (setEntry other) s := by
        rw [List.foldlM_append, List.foldlM_append]
        refine bind_congr fun s => ?_
        rw [List.foldlM_cons, setEntry_ordinary unknown ordinary]
        rfl
      rw [setPart_of_map found map, passed]
      exact setPart_of_map (Data.field?_insert_self _ _ _) rfl s
    · have apart : partName other ≠ partName part := fun named => same (partName_injective named)
      rw [setPart, setPart, Data.field?_insert_of_ne apart]

theorem withEntries_without (unknown : ¬ Known part key) (ordinary : Ordinary key)
    (without : Without part key entries entries') (s : Settings) :
    s.withEntries entries' = s.withEntries entries := by
  have parts : setPart entries' = setPart entries :=
    funext fun s => funext fun other => setPart_without unknown ordinary without s other
  have others (name : String) (apart : name ≠ partName part) :
      Data.field? name entries' = Data.field? name entries := by
    cases without with
    | less _ _ => exact Data.field?_insert_of_ne apart _ _
  rw [withEntries, withEntries, parts, others "app_name" (by cases part <;> decide),
    others "version" (by cases part <;> decide)]

/-! Loading from two files that differ in a key. -/

/-- Settings with those of variables over them, if they are to be used. -/
def overlaid (env : Environment) (useVariables : Bool) (s : Settings) : Except Failure Settings :=
  if useVariables then s.withVariables env else return s

/-- The settings from the entries of a file, with those of variables over them if they are to be used.
They are checked. -/
def loadEntries (env : Environment) (fs : Files) (useVariables : Bool) (folder : Path)
    (entries : List (Data × Data)) : Except Failure Settings := do
  let s ← overlaid env useVariables (← withEntries { default with folder := .text folder.text } entries)
  let _ ← s.check env fs
  return s

/-- The settings from a file, if there is one. Without one, they are loaded as from no entries. -/
def loadFile (env : Environment) (fs : Files) (useVariables : Bool) (folder : Path) :
    Option Path → Except Failure Settings
  | some p => do loadEntries env fs useVariables folder (← readEntries fs p)
  | none => loadEntries env fs useVariables folder []

theorem load_eq : load env fs given useVariables = (do
    let folder ← env.settingsFolder.mapError .breakdown
    loadFile env fs useVariables folder (← sourceOf fs folder given)) := by
  rw [load, gather_eq, bind_assoc]
  refine bind_congr fun folder => ?_
  rw [bind_assoc]
  refine bind_congr fun source => ?_
  cases source with
  | none => rfl
  | some p => simp only [withFile, loadFile, bind_assoc, loadEntries, overlaid]

theorem loadEntries_alike (places : fs'.SamePlaces fs) (folder : Path) :
    loadEntries env fs' useVariables folder entries = loadEntries env fs useVariables folder entries := by
  simp only [loadEntries, check, ScriptSettings.check, places.hasFile]

/-! The marks of values, which other values in a file can make others. -/

theorem overlaid_renumbered (env : Environment) (useVariables : Bool) (s : Settings) :
    overlaid env useVariables (s.renumbered ρ) = renumberedOutcome ρ (overlaid env useVariables s) := by
  cases useVariables with
  | true => exact withVariables_renumbered s env
  | false => rfl

/-- From entries under other marks the same is loaded, under those marks. -/
theorem loadEntries_renumbered (folder : Path) (entries : List (Data × Data)) :
    loadEntries env fs useVariables folder (renumberedEntries ρ entries) =
      renumberedOutcome ρ (loadEntries env fs useVariables folder entries) := by
  refine bind_renumberedOutcome (withEntries_renumbered { default with folder := .text folder.text } entries)
    fun s => ?_
  exact bind_renumberedOutcome (overlaid_renumbered env useVariables s) (checked_renumbered env fs)

theorem sourceOf_renumbered (fs : Files) (folder : Path) (given : Option String) :
    (sourceOf fs folder given).mapError (Failure.renumbered ρ) = sourceOf fs folder given := by
  rw [sourceOf]
  split
  · rw [mapError_bind, Failure.mapError_breakdown]
    refine bind_congr fun there => ?_
    split
    · rfl
    · exact Failure.mapError_settings _
  · rw [mapError_bind, Failure.mapError_breakdown]
    rfl

/-- Whether a key of a part is passed over, whatever else a file holds: with the marks of values renumbered, the
settings that are loaded, or the failure, are those without it. -/
def Ignored (part : Part) (key : Data) (ρ : Renumbering) : Prop :=
  ∀ env fs useVariables folder entries entries', Without part key (renumberedEntries ρ entries) entries' →
    loadEntries env fs useVariables folder entries' =
      renumberedOutcome ρ (loadEntries env fs useVariables folder entries)

/-- Whether the file of settings holds the same among some files as among others, less a key of a part and
under other marks. -/
structure FileWithout (part : Part) (key : Data) (ρ : Renumbering) (env : Environment) (given : Option String)
    (fs fs' : Files) : Prop where
  places : fs'.SamePlaces fs
  content : ∀ folder p, env.settingsFolder = .ok folder → sourceOf fs folder given = .ok (some p) →
    ∃ entries entries', readEntries fs p = .ok entries ∧ readEntries fs' p = .ok entries' ∧
      Without part key (renumberedEntries ρ entries) entries'

theorem ignored_of_ordinary (unknown : ¬ Known part key) (ordinary : Ordinary key) : Ignored part key ρ := by
  intro env fs useVariables folder entries entries' without
  rw [← loadEntries_renumbered, loadEntries, loadEntries, withEntries_without unknown ordinary without]

theorem load_of_ignored (ignored : Ignored part key ρ) (less : FileWithout part key ρ env given fs fs') :
    load env fs' given useVariables = renumberedOutcome ρ (load env fs given useVariables) := by
  have sources (folder : Path) : sourceOf fs' folder given = sourceOf fs folder given := by
    simp only [sourceOf, less.places.has]
  have file (folder : Path) (usual : env.settingsFolder = .ok folder) (source : Option Path)
      (found : sourceOf fs folder given = .ok source) : loadFile env fs' useVariables folder source =
        renumberedOutcome ρ (loadFile env fs useVariables folder source) := by
    cases source with
    | none =>
      rw [loadFile, loadFile, loadEntries_alike less.places]
      exact loadEntries_renumbered folder []
    | some p =>
      obtain ⟨entries, entries', read, read', without⟩ := less.content folder p usual found
      rw [loadFile, loadFile, read, read', ok_bind, ok_bind, loadEntries_alike less.places]
      exact ignored env fs useVariables folder entries entries' without
  simp only [load_eq, sources]
  cases usual : env.settingsFolder with
  | error b => rfl
  | ok folder =>
    have same : (sourceOf fs folder given).mapError (Failure.renumbered ρ) = sourceOf fs folder given :=
      sourceOf_renumbered fs folder given
    change sourceOf fs folder given >>= _ = renumberedOutcome ρ (sourceOf fs folder given >>= _)
    cases found : sourceOf fs folder given with
    | error failure =>
      rw [found] at same
      exact congrArg Except.error (Except.error.inj same).symm
    | ok source => exact file folder usual source found

/-! Keys that are not passed over. -/

/-- What is loaded from the entries of a file if there is a home directory and nothing else. -/
def loadHomely (entries : List (Data × Data)) : Except Failure Settings :=
  loadEntries homely .empty false ⟨0, []⟩ entries

theorem loadHomely_empty (part : Part) :
    (loadHomely [(.text (partName part), .map [])]).toOption.map listings = some [] := by
  cases part <;> decide +kernel

theorem loadHomely_reserved (part : Part) : ∀ name ∈ reserved,
    (loadHomely [(.text (partName part), .map [(.text name, .null)])]).toOption.map listings ≠ some [] := by
  cases part <;> decide +kernel

/-- A key that is no text escapes. -/
theorem text_of_loadHomely {s : Settings}
    (loaded : loadHomely [(.text (partName part), .map [(key, .null)])] = .ok s) : ∃ name, key = .text name := by
  by_contra other
  obtain ⟨s', taken, _⟩ := bind_eq_ok.mp loaded
  refine (told_withEntries _ _).mp (.inl ⟨s', taken⟩) (.part ?_)
  have escapes : PartEscapes [(.text (partName part), .map [(key, .null)])] part :=
    ⟨_, Data.field?_insert_self (partName part) _ [], _, rfl, _, List.mem_cons_self, .key (not_exists.mp other)⟩
  cases part with
  | engine => exact .here escapes _
  | script => exact .later rfl (.here escapes _)
  | logging => exact .later rfl (.later rfl (.here escapes _))

theorem without_only (part : Part) (key : Data) :
    Without part key [(.text (partName part), .map [(key, .null)])] [(.text (partName part), .map [])] := by
  have less := Without.less (Data.field?_insert_self (partName part) (.map [(key, .null)]) [])
    (show Data.entries? _ = some ([] ++ (key, .null) :: []) from rfl)
  cases part <;> exact less

theorem ordinary_of_ignored (ignored : Ignored part key (.refl _)) : Ordinary key := by
  have only : Without part key (renumberedEntries (.refl _) [(.text (partName part), .map [(key, .null)])])
      [(.text (partName part), .map [])] := by
    rw [Data.renumberedEntries_refl]
    exact without_only part key
  have same : loadHomely _ = renumberedOutcome (.refl _) (loadHomely _) :=
    ignored homely .empty false ⟨0, []⟩ _ _ only
  rw [renumberedOutcome_refl] at same
  have empty := loadHomely_empty part
  rw [same] at empty
  obtain ⟨s, loaded, _⟩ := Option.map_eq_some_iff.mp empty
  obtain ⟨name, rfl⟩ : ∃ name, key = .text name := by
    cases made : loadHomely [(.text (partName part), .map [(key, .null)])] with
    | ok s => exact text_of_loadHomely made
    | error f =>
      rw [made] at loaded
      contradiction
  exact ⟨name, rfl, fun member => loadHomely_reserved part name member empty⟩

/-- A key of a part that names no setting is passed over just if it is a text, and none of a few names. Then
the same is loaded from a file with the key and from one without it, whatever the marks of values in the two are. -/
theorem ignored_iff (unknown : ¬ Known part key) : (Ignored part key (.refl _) ↔ Ordinary key) ∧
    (Ordinary key → ∀ ρ, Ignored part key ρ ∧ ∀ env given useVariables fs fs',
      FileWithout part key ρ env given fs fs' →
        load env fs' given useVariables = renumberedOutcome ρ (load env fs given useVariables)) := by
  refine ⟨⟨ordinary_of_ignored, ignored_of_ordinary unknown⟩, fun ordinary ρ => ?_⟩
  have ignored : Ignored part key ρ := ignored_of_ordinary unknown ordinary
  exact ⟨ignored, fun env given useVariables fs fs' => load_of_ignored ignored⟩

theorem sourceOf_given {path : String} (named : path ≠ "") (there : fs.has (.parse path) = .ok true)
    (folder : Path) : sourceOf fs folder (some path) = .ok (some (.parse path)) := by
  have given : (some path).filter (· ≠ "") = some path := by simpa using named
  rw [sourceOf, given]
  dsimp only
  rw [there]
  rfl

theorem fileWithout_of_read {path : String} (named : path ≠ "") (places : fs'.SamePlaces fs)
    (there : fs.has (.parse path) = .ok true) (read : readEntries fs (.parse path) = .ok entries)
    (read' : readEntries fs' (.parse path) = .ok entries') (less : Without part key entries entries') :
    FileWithout part key (.refl _) env (some path) fs fs' := by
  rw [← Data.renumberedEntries_refl entries] at less
  refine ⟨places, fun folder p _ found => ⟨entries, entries', ?_, ?_, less⟩⟩
  · rw [sourceOf_given named there, Except.ok.injEq, Option.some.injEq] at found
    rw [← found, read]
  · rw [sourceOf_given named there, Except.ok.injEq, Option.some.injEq] at found
    rw [← found, read']

def single (text : String) : Files := ⟨[(⟨0, ["c.yaml"]⟩, .text text)]⟩

def numbered (part : String) (numbers : List (String × Int)) : List (Data × Data) :=
  [(.text part, .map (numbers.map fun n => (.text n.1, .int n.2)))]

/-- Whether entries are those of a part with a number for each name. -/
def isNumbered (part : String) : List (String × Int) → List (Data × Data) → Bool
  | numbers, [(.text name, .map settings)] => name == part && areNumbers numbers settings
  | _, _ => false
where
  areNumbers : List (String × Int) → List (Data × Data) → Bool
    | [], [] => true
    | (name, i) :: numbers, (.text name', .int i') :: settings =>
      name == name' && i == i' && areNumbers numbers settings
    | _, _ => false

theorem areNumbers_eq {numbers : List (String × Int)} {settings : List (Data × Data)}
    (fits : isNumbered.areNumbers numbers settings = true) :
    settings = numbers.map fun n => (.text n.1, .int n.2) := by
  fun_induction isNumbered.areNumbers numbers settings with
  | case1 => rfl
  | case2 name i numbers name' i' settings ih => simp_all
  | case3 => contradiction

theorem isNumbered_eq {part : String} {numbers : List (String × Int)} (fits : isNumbered part numbers entries = true) :
    entries = numbered part numbers := by
  unfold isNumbered at fits
  split at fits
  · next name settings =>
    obtain ⟨named, fits⟩ := Bool.and_eq_true_iff.mp fits
    rw [areNumbers_eq fits, beq_iff_eq.mp named, numbered]
  · contradiction

theorem readEntries_of_isNumbered {p : Path} {part : String} {numbers : List (String × Int)}
    (fits : (readEntries fs p).toOption.any (isNumbered part numbers) = true) :
    readEntries fs p = .ok (numbered part numbers) := by
  obtain ⟨entries, read, fits⟩ := exists_of_any fits
  rw [read, isNumbered_eq fits]

theorem without_numbered {name : String} (before after : List (String × Int)) (i : Int) :
    Without part (.text name) (numbered (partName part) (before ++ (name, i) :: after))
      (numbered (partName part) (before ++ after)) := by
  have less := Without.less (Data.field?_insert_self (partName part)
    (.map ((before ++ (name, i) :: after).map fun n => (.text n.1, .int n.2))) [])
    (congrArg some (List.map_append ..))
  rw [← List.map_append] at less
  cases part <;> exact less

def checking : Files := single "logging:\n  validate: 1\n"

def unchecking : Files := single "logging: \x7b\x7d\n"

theorem checking_breaks : FileWithout .logging (.text "validate") (.refl _) homely (some "c.yaml") checking unchecking ∧
    load homely checking (some "c.yaml") true = .error (.breakdown .wrongKind) ∧
    ∃ s, load homely unchecking (some "c.yaml") true = .ok s := by
  have read : readEntries checking (.parse "c.yaml") = .ok (numbered "logging" [("validate", 1)]) :=
    readEntries_of_isNumbered (by decide +kernel)
  have read' : readEntries unchecking (.parse "c.yaml") = .ok (numbered "logging" []) :=
    readEntries_of_isNumbered (by decide +kernel)
  have loaded : (load homely unchecking (some "c.yaml") true).toOption.any (fun _ => true) = true := by
    decide +kernel
  obtain ⟨s, loaded, _⟩ := exists_of_any loaded
  refine ⟨?_, of_stoppedBy? (by decide +kernel), s, loaded⟩
  exact fileWithout_of_read (by decide) (.of_texts _ _ _) (by decide +kernel) read read'
    (without_numbered [] [] 1)

def misspelt : Files := single "engine:\n  mem_size: 5\n  mem_sise: 7\n  max_goto_depth: 3\n"

def spelt : Files := single "engine:\n  mem_size: 5\n  max_goto_depth: 3\n"

theorem misspelt_ignored : ¬ Known .engine (.text "mem_sise") ∧ Ignored .engine (.text "mem_sise") (.refl _) ∧
    load homely spelt (some "c.yaml") true = load homely misspelt (some "c.yaml") true := by
  have unknown : ¬ Known .engine (.text "mem_sise") := by
    rintro ⟨name, member, same⟩
    cases same
    exact absurd member (by decide)
  have ordinary : Ordinary (.text "mem_sise") := ⟨"mem_sise", rfl, by decide⟩
  have read : readEntries misspelt (.parse "c.yaml") =
      .ok (numbered "engine" [("mem_size", 5), ("mem_sise", 7), ("max_goto_depth", 3)]) :=
    readEntries_of_isNumbered (by decide +kernel)
  have read' : readEntries spelt (.parse "c.yaml") =
      .ok (numbered "engine" [("mem_size", 5), ("max_goto_depth", 3)]) :=
    readEntries_of_isNumbered (by decide +kernel)
  have less : FileWithout .engine (.text "mem_sise") (.refl _) homely (some "c.yaml") misspelt spelt :=
    fileWithout_of_read (by decide) (.of_texts _ _ _) (by decide +kernel) read read'
      (without_numbered [("mem_size", 5)] [("max_goto_depth", 3)] 7)
  obtain ⟨passed, renumbered⟩ := ignored_iff unknown
  obtain ⟨_, loads⟩ := renumbered ordinary (.refl _)
  have same := loads homely (some "c.yaml") true misspelt spelt less
  rw [renumberedOutcome_refl] at same
  exact ⟨unknown, passed.mpr ordinary, same⟩

end Settings
end Colloquy
