import Colloquy.Proofs.Files.Like
import Colloquy.Proofs.Settings.Layers

/-! Settings of the script that a call gives, and files that differ in what they give for them. What is
gathered from such files differs only there. -/

namespace Colloquy

namespace Settings

open Data (Renumbering renumberedEntries)

/-- The settings that a call can give by a value of its own. -/
inductive CallSetting where
  | path
  | seed
deriving DecidableEq

namespace CallSetting

def name : CallSetting → String
  | .path => "path"
  | .seed => "seed"

/-- Whether a call gives a setting. An empty path counts as none. -/
def GivenBy (c : CallSetting) (call : Invocation) : Prop :=
  match c with
  | .path => call.script.filter (· ≠ "") ≠ none
  | .seed => call.seed ≠ none

def blank (c : CallSetting) (s : Settings) : Settings :=
  match c with
  | .path => { s with script := { s.script with path := .null } }
  | .seed => { s with script := { s.script with seed := .null } }

/-- Whether settings differ in one of them at most. -/
def Agree (c : CallSetting) (s s' : Settings) : Prop := c.blank s = c.blank s'

variable {c : CallSetting} {s s' : Settings} {part : Part} {name : String} {value : Data}
  {entry : Data × Data} {entries entries' settings : List (Data × Data)} {env : Environment}

theorem Agree.refl (s : Settings) : c.Agree s s := rfl

/-- What does not look at a setting, but to replace it, keeps settings alike that differ in it. -/
theorem Agree.map {change : Settings → Settings} (agree : c.Agree s s')
    (unseen : ∀ s, c.blank (change s) = c.blank (change (c.blank s))) : c.Agree (change s) (change s') := by
  rw [Agree, unseen s, unseen s', show c.blank s = c.blank s' from agree]

theorem blank_set (s : Settings) (part : Part) (name : String) (value : Data) :
    c.blank ((s.set? part name value).getD s) = c.blank (((c.blank s).set? part name value).getD (c.blank s)) := by
  cases part with
  | engine =>
    have engine : (c.blank s).engine = s.engine := by cases c <;> rfl
    rw [set?, set?, engine]
    cases s.engine.set? name value <;> cases c <;> rfl
  | logging =>
    have logging : (c.blank s).logging = s.logging := by cases c <;> rfl
    rw [set?, set?, logging]
    cases s.logging.set? name value <;> cases c <;> rfl
  | script =>
    rw [set?, set?]
    unfold ScriptSettings.set?
    split <;> cases c <;> rfl

theorem blank_assignEntry (s : Settings) (part : Part) (name : String) (value : Data) :
    c.blank (s.assignEntry part name value) = c.blank ((c.blank s).assignEntry part name value) := by
  rw [assignEntry, assignEntry]
  split
  · cases c <;> rfl
  · split
    · cases c <;> rfl
    · exact blank_set s part name value

theorem blank_reset (s : Settings) (part : Part) : c.blank (s.reset part) = c.blank ((c.blank s).reset part) := by
  cases part <;> cases c <;> rfl

theorem Agree.replacePart (agree : c.Agree s s') (part : Part) (settings : List (Data × Data)) :
    c.Agree (s.replacePart part settings) (s'.replacePart part settings) := by
  rw [Settings.replacePart, Settings.replacePart]
  have start : c.Agree (s.reset part) (s'.reset part) := agree.map fun s => blank_reset s part
  generalize s.reset part = s at start
  generalize s'.reset part = s' at start
  induction settings generalizing s s' with
  | nil => exact start
  | cons entry rest ih =>
    refine ih _ _ ?_
    dsimp only
    split
    · exact start.map fun s => blank_assignEntry s part _ entry.2
    · exact start

theorem Agree.setEntry (agree : c.Agree s s') (part : Part) (entry : Data × Data) :
    Matched c.Agree (Settings.setEntry part s entry) (Settings.setEntry part s' entry) := by
  rw [Settings.setEntry, Settings.setEntry]
  split
  · exact .failed _
  · exact .failed _
  · exact .done (agree.replacePart part _)
  · exact .failed _
  · exact .done (agree.map fun s => blank_assignEntry s part _ entry.2)
  · exact .failed _

/-! Files that differ in a setting. -/

def isKey (c : CallSetting) (key : Data) : Bool := key.text? == some c.name

/-- What a file gives for the script, but for a setting. -/
def rest (c : CallSetting) (entries : List (Data × Data)) : List (Data × Data) :=
  (entriesIn .script entries).filter fun entry => !c.isKey entry.1

/-- Whether what a file gives for the script is a map or stands for nothing. -/
def Parted (entries : List (Data × Data)) : Prop :=
  ∀ block, Data.field? (partName .script) entries = some block → block.isTruthy = true →
    ∃ settings, block.entries? = some settings

/-- Whether the entries of two files are the same, but for the value that they give for a setting. -/
structure Differ (c : CallSetting) (entries entries' : List (Data × Data)) : Prop where
  others : ∀ name, name ≠ partName .script → Data.field? name entries' = Data.field? name entries
  script : Data.field? (partName .script) entries' = Data.field? (partName .script) entries ∨
    Parted entries ∧ Parted entries' ∧ c.rest entries' = c.rest entries

theorem Differ.refl (entries : List (Data × Data)) : c.Differ entries entries := ⟨fun _ _ => rfl, .inl rfl⟩

theorem eq_of_isKey {key : Data} (named : c.isKey key = true) : key = .text c.name := by
  have named : key.text? = some c.name := beq_iff_eq.mp named
  cases key with
  | text name => exact congrArg Data.text (Option.some.inj named)
  | _ => contradiction

theorem setEntry_own (c : CallSetting) (s : Settings) (value : Data) :
    ∃ s', setEntry .script s (.text c.name, value) = .ok s' ∧ c.Agree s' s := by
  cases c <;> exact ⟨_, rfl, rfl⟩

theorem Agree.setEntries (agree : c.Agree s s') (part : Part) (settings : List (Data × Data)) :
    Matched c.Agree (settings.foldlM (Settings.setEntry part) s) (settings.foldlM (Settings.setEntry part) s') :=
  Matched.foldlM (fun entry _ _ agree => agree.setEntry part entry) settings agree

/-- The entries for a setting itself make no difference to the others. -/
theorem Agree.setEntries_filter (agree : c.Agree s s') (settings : List (Data × Data)) :
    Matched c.Agree (settings.foldlM (Settings.setEntry .script) s)
      ((settings.filter fun entry => !c.isKey entry.1).foldlM (Settings.setEntry .script) s') := by
  induction settings generalizing s s' with
  | nil => exact .done agree
  | cons entry rest ih =>
    cases named : c.isKey entry.1 with
    | true =>
      obtain ⟨key, value⟩ := entry
      cases eq_of_isKey named
      obtain ⟨s₁, entered, same⟩ := c.setEntry_own s value
      rw [List.filter_cons_of_neg (by simp [named]), List.foldlM_cons, entered, ok_bind]
      exact ih (Eq.trans same agree)
    | false =>
      rw [List.filter_cons_of_pos (by simp [named]), List.foldlM_cons, List.foldlM_cons]
      exact (agree.setEntry .script entry).bind fun _ _ => ih

theorem setPart_of_parted (parted : Parted entries) (s : Settings) :
    setPart entries s .script = ((entriesIn .script entries).foldlM (setEntry .script) s).mapError .breakdown := by
  cases found : Data.field? (partName .script) entries with
  | none =>
    have nothing : entriesIn .script entries = [] := by simp [entriesIn, found]
    rw [setPart, found, nothing]
    rfl
  | some block =>
    cases map : block.entries? with
    | some settings =>
      have inside : entriesIn .script entries = settings := by simp [entriesIn, found, map]
      rw [setPart_of_map found map, inside]
    | none =>
      have falsy : block.isTruthy = false := by
        cases truthy : block.isTruthy with
        | false => rfl
        | true =>
          obtain ⟨settings, some⟩ := parted block found truthy
          rw [map] at some
          contradiction
      have nothing : entriesIn .script entries = [] := by simp [entriesIn, found, map]
      rw [setPart, found, Option.getD_some, falsy, nothing]
      rfl

theorem Agree.setPart (agree : c.Agree s s') (entries : List (Data × Data)) (part : Part) :
    Matched c.Agree (Settings.setPart entries s part) (Settings.setPart entries s' part) := by
  rw [Settings.setPart, Settings.setPart]
  split
  · exact .done agree
  · split
    · exact (agree.setEntries part _).mapError _
    · exact .failed _

theorem Agree.setPart_differ (agree : c.Agree s s') (differ : c.Differ entries entries') (part : Part) :
    Matched c.Agree (Settings.setPart entries s part) (Settings.setPart entries' s' part) := by
  have same (found : Data.field? (partName part) entries' = Data.field? (partName part) entries) :
      Matched c.Agree (Settings.setPart entries s part) (Settings.setPart entries' s' part) := by
    have taken : Settings.setPart entries' s' part = Settings.setPart entries s' part := by
      rw [Settings.setPart, Settings.setPart, found]
    rw [taken]
    exact agree.setPart entries part
  by_cases script : part = .script
  · subst script
    rcases differ.script with found | ⟨parted, parted', rest⟩
    · exact same found
    · rw [setPart_of_parted parted, setPart_of_parted parted']
      refine Matched.mapError ?_ _
      have first := agree.setEntries_filter (entriesIn .script entries)
      have second := (Agree.refl (c := c) s').setEntries_filter (entriesIn .script entries')
      change Matched _ _ ((c.rest entries').foldlM _ _) at second
      rw [rest] at second
      refine (first.trans second.symm).weaken ?_
      rintro _ _ ⟨_, before, after⟩
      exact Eq.trans before (Eq.symm after)
  · exact same (differ.others _ fun named => script (partName_injective named))

theorem matched_withEntries (differ : c.Differ entries entries') (s : Settings) :
    Matched c.Agree (s.withEntries entries) (s.withEntries entries') := by
  have taken (start : Settings) :
      Matched c.Agree (parts.foldlM (setPart entries) start) (parts.foldlM (setPart entries') start) :=
    Matched.foldlM (fun part _ _ agree => agree.setPart_differ differ part) parts (Agree.refl start)
  rw [withEntries, withEntries, differ.others "app_name" (by decide), differ.others "version" (by decide)]
  split
  · split
    · exact taken _
    · exact .failed _
  · exact taken _

theorem Agree.withVariables (agree : c.Agree s s') (env : Environment) :
    Matched c.Agree (s.withVariables env) (s'.withVariables env) := by
  refine Matched.foldlM (fun v s s' agree => ?_) knownVariables agree
  rw [setVariable, setVariable]
  split
  · exact .done agree
  · split
    · exact .done (agree.map fun s => blank_set s v.part v.setting _)
    · exact .failed _

/-- Whether a text of a file is a map of some entries. -/
def Maps (text : String) (entries : List (Data × Data)) : Prop :=
  ∃ value, Yaml.read (Files.lineEnds text.toList) = .ok value ∧ value.entries? = some entries

/-- Whether two texts of a file are maps that are the same but for the value of a setting, and for the marks of
values. -/
def Varies (c : CallSetting) (ρ : Renumbering) (text text' : String) : Prop :=
  ∃ entries entries', Maps text entries ∧ Maps text' entries' ∧ c.Differ (renumberedEntries ρ entries) entries'

/-- Whether two texts of a file are the same, or differ in the value of a setting and in marks. -/
def SameOrVaries (c : CallSetting) (ρ : Renumbering) (text text' : String) : Prop :=
  text = text' ∨ c.Varies ρ text text'

variable {ρ σ : Renumbering}

theorem SameOrVaries.refl (text : String) : c.SameOrVaries ρ text text := .inl rfl

variable {fs fs' : Files} {given : Option String} {useVariables : Bool}

theorem readEntries_of_maps {text : String} {p : Path} (found : fs.find? p = some (.text text))
    (maps : Maps text entries) : readEntries fs p = .ok entries := by
  obtain ⟨value, read, map⟩ := maps
  have spelt : fs.read p = .ok (Files.lineEnds text.toList) := by rw [Files.read, found]
  rw [readEntries, spelt]
  dsimp only
  rw [read]
  dsimp only
  cases truthy : value.isTruthy with
  | true =>
    rw [map]
    rfl
  | false =>
    rw [Data.entries_eq_nil truthy map]
    rfl

/-- A file reads the same, or gives entries that differ in a setting and in marks. -/
theorem readEntries_like (like : fs.Like (c.SameOrVaries ρ) fs') (p : Path) :
    readEntries fs' p = readEntries fs p ∨ ∃ entries entries', readEntries fs p = .ok entries ∧
      readEntries fs' p = .ok entries' ∧ c.Differ (renumberedEntries ρ entries) entries' := by
  have same (alike : fs'.read p = fs.read p) : readEntries fs' p = readEntries fs p := by
    rw [readEntries, readEntries, alike]
  obtain ⟨old, new⟩ | ⟨e, e', old, new, fits⟩ := like.found p
  · exact .inl (same (by rw [Files.read, Files.read, old, new]))
  · cases fits with
    | directory => exact .inl (same (by rw [Files.read, Files.read, old, new]))
    | bytes => exact .inl (same (by rw [Files.read, Files.read, old, new]))
    | text fits =>
      rcases fits with rfl | ⟨entries, entries', maps, maps', differ⟩
      · exact .inl (same (by rw [Files.read, Files.read, old, new]))
      · exact .inr ⟨entries, entries', readEntries_of_maps old maps, readEntries_of_maps new maps', differ⟩

theorem matched_withFile (like : fs.Like (c.SameOrVaries ρ) fs') (folder : Path) (source : Option Path) :
    ∃ σ, (σ = .refl _ ∨ σ = ρ) ∧
      Matched c.Agree (renumberedOutcome σ (withFile fs { default with folder := .text folder.text } source))
        (withFile fs' { default with folder := .text folder.text } source) := by
  have kept (x : Except Failure Settings) :
      ∃ σ, (σ = .refl _ ∨ σ = ρ) ∧ Matched c.Agree (renumberedOutcome σ x) x :=
    ⟨.refl _, .inl rfl, by rw [renumberedOutcome_refl]; exact Matched.refl Agree.refl x⟩
  cases source with
  | none => exact kept _
  | some p =>
    rw [withFile, withFile]
    rcases readEntries_like like p with same | ⟨entries, entries', read, read', differ⟩
    · rw [same]
      exact kept _
    · refine ⟨ρ, .inr rfl, ?_⟩
      rw [read, read', ok_bind, ok_bind, ← withEntries_renumbered]
      exact matched_withEntries differ _

/-- What is gathered from files that differ in the value of a setting and in marks differs there at most. -/
theorem matched_gather (like : fs.Like (c.SameOrVaries ρ) fs') (env : Environment) (given : Option String)
    (useVariables : Bool) : ∃ σ, (σ = .refl _ ∨ σ = ρ) ∧
      Matched c.Agree (renumberedOutcome σ (gather env fs given useVariables)) (gather env fs' given useVariables) := by
  have failed (failure : Failure) : ∃ σ, (σ = .refl _ ∨ σ = ρ) ∧
      Matched c.Agree (renumberedOutcome σ (.error failure)) (.error failure) :=
    ⟨.refl _, .inl rfl, by rw [renumberedOutcome_refl]; exact .failed failure⟩
  have sources (folder : Path) : sourceOf fs' folder given = sourceOf fs folder given := by
    simp only [sourceOf, like.samePlaces.has]
  rw [gather_eq, gather_eq]
  cases env.settingsFolder with
  | error b => exact failed _
  | ok folder =>
    change ∃ σ, _ ∧
      Matched c.Agree (renumberedOutcome σ (sourceOf fs folder given >>= _)) (sourceOf fs' folder given >>= _)
    rw [sources]
    cases sourceOf fs folder given with
    | error failure => exact failed failure
    | ok source =>
      obtain ⟨σ, among, taken⟩ := matched_withFile like folder source
      refine ⟨σ, among, ?_⟩
      change Matched c.Agree (renumberedOutcome σ (withFile fs _ source >>= overlaid env useVariables))
        (withFile fs' _ source >>= overlaid env useVariables)
      rw [← bind_renumberedOutcome rfl (overlaid_renumbered env useVariables)]
      refine taken.bind fun s s' agree => ?_
      cases useVariables with
      | true => exact agree.withVariables env
      | false => exact .done agree

/-! Settings of a call over those that are loaded. -/

variable {call : Invocation}

theorem withCall_blank (gives : c.GivenBy call) (s : Settings) : (c.blank s).withCall call = s.withCall call := by
  cases c with
  | path =>
    obtain ⟨path, some⟩ := Option.ne_none_iff_exists'.mp gives
    simp only [withCall, some]
    rfl
  | seed =>
    obtain ⟨seed, some⟩ := Option.ne_none_iff_exists'.mp gives
    simp only [withCall, some, Option.getD_some]
    cases call.script.filter (· ≠ "") <;> rfl

/-- Settings that differ in one that a call gives are the same with those of the call over them. -/
theorem Agree.withCall (agree : c.Agree s s') (gives : c.GivenBy call) : s.withCall call = s'.withCall call := by
  rw [← withCall_blank gives s, ← withCall_blank gives s', show c.blank s = c.blank s' from agree]

/-- Whether settings are loaded in two cases, or loading them fails alike, but for the marks of values. -/
inductive SameVerdict (ρ : Renumbering) : Except Failure Settings → Except Failure Settings → Prop
  | loaded (s s' : Settings) : SameVerdict ρ (.ok s) (.ok s')
  | failed (failure : Failure) : SameVerdict ρ (.error failure) (.error failure)
  | renumbered (failure : Failure) : SameVerdict ρ (.error failure) (.error (failure.renumbered ρ))

theorem SameVerdict.of_matched {related : Settings → Settings → Prop} {x y : Except Failure Settings}
    (among : σ = .refl _ ∨ σ = ρ) (matched : Matched related (renumberedOutcome σ x) y) : SameVerdict ρ x y := by
  cases x with
  | ok s =>
    cases matched
    exact .loaded _ _
  | error failure =>
    cases matched
    rcases among with rfl | rfl
    · rw [failure.renumbered_refl]
      exact .failed failure
    · exact .renumbered failure

theorem load_renumbered : renumberedOutcome σ (load env fs given useVariables) =
    renumberedOutcome σ (gather env fs given useVariables) >>= checked env fs :=
  (bind_renumberedOutcome rfl (checked_renumbered env fs)).symm

theorem gather_of_load (loaded : load env fs given useVariables = .ok s) :
    gather env fs given useVariables = .ok s := by
  obtain ⟨s', gathered, passed⟩ := bind_eq_ok.mp loaded
  obtain ⟨_, _, same⟩ := bind_eq_ok.mp passed
  cases same
  exact gathered

/-- Settings that are loaded from such files differ in the setting and in marks at most, if the verdict on both is
the same. -/
theorem ends_load (like : fs.Like (c.SameOrVaries ρ) fs')
    (verdict : SameVerdict ρ (load env fs given useVariables) (load env fs' given useVariables)) :
    Ends (fun s s' => ∃ σ, c.Agree (s.renumbered σ) s') (load env fs given useVariables)
      (load env fs' given useVariables) := by
  obtain ⟨σ, _, gathered⟩ := matched_gather like env given useVariables
  cases old : load env fs given useVariables <;> cases new : load env fs' given useVariables <;>
    rw [old, new] at verdict <;> cases verdict
  · exact .failed rfl
  · exact .failed (Failure.notice_renumbered _).symm
  · rw [gather_of_load old, gather_of_load new] at gathered
    cases gathered with
    | done agree => exact .done ⟨σ, agree⟩

/-- Whether a setting passes its own check. -/
def Sound (c : CallSetting) (env : Environment) (fs : Files) (s : Settings) : Prop :=
  match c with
  | .path => ∃ path, s.script.located env fs = .ok path
  | .seed => s.script.seed = .null ∨ ∃ seed, s.script.seed = .int seed

theorem exists_seeded {s : ScriptSettings} (sound : s.seed = .null ∨ ∃ seed, s.seed = .int seed)
    (path : Option String) : ∃ options, s.seeded path = .ok options := by
  rw [ScriptSettings.seeded]
  rcases sound with none | ⟨seed, number⟩
  · rw [none]
    exact ⟨_, rfl⟩
  · rw [number]
    exact ⟨_, rfl⟩

/-- The script passes the check in two cases, or fails it alike, if the setting in which they differ passes. -/
theorem matched_checkScript (places : fs'.SamePlaces fs) (agree : c.Agree s s') (sound : c.Sound env fs s)
    (sound' : c.Sound env fs' s') :
    Matched (fun _ _ => True) (s.script.check env fs) (s'.script.check env fs') := by
  rw [ScriptSettings.check_eq, ScriptSettings.check_eq]
  cases c with
  | path =>
    obtain ⟨path, found⟩ := sound
    obtain ⟨path', found'⟩ := sound'
    have seed : s.script.seed = s'.script.seed := by
      have same := congrArg (fun s => s.script.seed) agree
      exact same
    rw [found, found', ok_bind, ok_bind, ScriptSettings.seeded, ScriptSettings.seeded, seed]
    split
    · exact .done trivial
    · exact .done trivial
    · exact .failed _
  | seed =>
    have path : s.script.path = s'.script.path := by
      have same := congrArg (fun s => s.script.path) agree
      exact same
    have located : s'.script.located env fs' = s.script.located env fs := by
      simp only [ScriptSettings.located, ScriptSettings.pathGiven, path, places.hasFile]
    rw [located]
    refine Matched.bind_same _ fun path => ?_
    obtain ⟨options, seeded⟩ := exists_seeded sound path
    obtain ⟨options', seeded'⟩ := exists_seeded sound' path
    rw [seeded, seeded']
    exact .done trivial

theorem matched_check (places : fs'.SamePlaces fs) (agree : c.Agree s s') (sound : c.Sound env fs s)
    (sound' : c.Sound env fs' s') : Matched (fun _ _ => True) (s.check env fs) (s'.check env fs') := by
  have blocked : s.blocked = s'.blocked := by
    have same := congrArg Settings.blocked agree
    cases c <;> exact same
  have engine : s.engine = s'.engine := by
    have same := congrArg Settings.engine agree
    cases c <;> exact same
  have logging : s.logging = s'.logging := by
    have same := congrArg Settings.logging agree
    cases c <;> exact same
  simp only [check, checkable, blocked, engine, logging]
  refine Matched.bind_same _ fun _ => Matched.bind_same _ fun _ => Matched.bind_same _ fun _ => ?_
  refine (matched_checkScript places agree sound sound').bind fun _ _ _ => ?_
  exact Matched.bind_same _ fun _ => Matched.bind_same _ fun _ => .done trivial

theorem Sound.renumbered (sound : c.Sound env fs s) : c.Sound env fs (s.renumbered σ) := by
  cases c with
  | path =>
    obtain ⟨path, found⟩ := sound
    refine ⟨path, ?_⟩
    have located : (s.script.renumbered σ).located env fs = (s.script.located env fs).mapError (Failure.renumbered σ) :=
      s.script.located_renumbered env fs
    rw [found] at located
    exact located
  | seed =>
    obtain ⟨_, _, _, ⟨_, seed⟩, _, _, _, _⟩ := s
    rcases sound with none | ⟨seed, number⟩
    · cases none
      exact .inl rfl
    · cases number
      exact .inr ⟨seed, rfl⟩

/-- The verdict on such files is the same if it is on all that is gathered from them. -/
theorem sameVerdict_of_checked (like : fs.Like (c.SameOrVaries ρ) fs')
    (same : ∀ σ s s', gather env fs given useVariables = .ok s → gather env fs' given useVariables = .ok s' →
      c.Agree (s.renumbered σ) s' →
        Matched (fun _ _ => True) (checked env fs (s.renumbered σ)) (checked env fs' s')) :
    SameVerdict ρ (load env fs given useVariables) (load env fs' given useVariables) := by
  obtain ⟨σ, among, gathered⟩ := matched_gather like env given useVariables
  have both : Matched (fun _ _ => True) (renumberedOutcome σ (load env fs given useVariables))
      (load env fs' given useVariables) := by
    rw [load_renumbered]
    change Matched _ _ (gather env fs' given useVariables >>= checked env fs')
    generalize gather env fs given useVariables = x at gathered same
    generalize gather env fs' given useVariables = y at gathered same
    cases x with
    | error failure =>
      cases gathered
      exact .failed _
    | ok s =>
      cases gathered with
      | done agree => exact same σ s _ rfl rfl agree
  exact .of_matched among both

theorem sameVerdict_of_sound (like : fs.Like (c.SameOrVaries ρ) fs')
    (sound : ∀ s, gather env fs given useVariables = .ok s → c.Sound env fs s)
    (sound' : ∀ s, gather env fs' given useVariables = .ok s → c.Sound env fs' s) :
    SameVerdict ρ (load env fs given useVariables) (load env fs' given useVariables) := by
  refine sameVerdict_of_checked like fun σ s s' gathered gathered' agree => ?_
  have checks := matched_check like.samePlaces agree (sound s gathered).renumbered (sound' s' gathered')
  exact checks.bind fun _ _ _ => .done trivial

def variableName (c : CallSetting) : String :=
  match c with
  | .path => "ELIZA_SCRIPT_PATH"
  | .seed => "ELIZA_SCRIPT_SEED"

theorem exists_variable (c : CallSetting) : ∃ v, variableFor? .script c.name = some v ∧ v.name = c.variableName := by
  cases c with
  | path => exact ⟨_, variableFor?_eq_some (v := ⟨"ELIZA_SCRIPT_PATH", .script, "path", .words⟩) |>.mpr
      ⟨by simp [knownVariables], rfl, rfl⟩, rfl⟩
  | seed => exact ⟨_, variableFor?_eq_some (v := ⟨"ELIZA_SCRIPT_SEED", .script, "seed", .number⟩) |>.mpr
      ⟨by simp [knownVariables], rfl, rfl⟩, rfl⟩

theorem Agree.eq (agree : c.Agree s s') (same : s.get? .script c.name = s'.get? .script c.name) : s = s' := by
  obtain ⟨_, _, _, ⟨_, _⟩, _, _, _, _⟩ := s
  obtain ⟨_, _, _, ⟨_, _⟩, _, _, _, _⟩ := s'
  cases c with
  | path =>
    cases Option.some.inj same
    cases agree
    rfl
  | seed =>
    cases Option.some.inj same
    cases agree
    rfl

theorem gathered_variables (done : gather env fs given true = .ok s) :
    ∃ base : Settings, base.withVariables env = .ok s := by
  rw [gather_eq] at done
  obtain ⟨_, _, done⟩ := bind_eq_ok.mp done
  obtain ⟨_, _, done⟩ := bind_eq_ok.mp done
  obtain ⟨base, _, done⟩ := bind_eq_ok.mp done
  exact ⟨base, done⟩

theorem sameVerdict_of_variable (like : fs.Like (c.SameOrVaries ρ) fs') (set : env.get? c.variableName ≠ none) :
    SameVerdict ρ (load env fs given true) (load env fs' given true) := by
  refine sameVerdict_of_checked like fun σ s s' gathered gathered' agree => ?_
  obtain ⟨base, taken⟩ := gathered_variables gathered
  obtain ⟨base', taken'⟩ := gathered_variables gathered'
  have marked : (base.renumbered σ).withVariables env = .ok (s.renumbered σ) := by
    rw [withVariables_renumbered, taken]
    rfl
  obtain ⟨v, gives, named⟩ := c.exists_variable
  obtain ⟨text, set⟩ := Option.ne_none_iff_exists'.mp set
  have same : s.renumbered σ = s' := by
    refine agree.eq ?_
    rw [get?_withVariables marked, get?_withVariables taken', gives, Option.bind_some, named, set]
  have checks : s'.check env fs' = s'.check env fs := by
    simp only [check, ScriptSettings.check, like.samePlaces.hasFile]
  rw [same, checked, checked, checks]
  exact Matched.refl (fun _ => trivial) _

end CallSetting
end Settings
end Colloquy
