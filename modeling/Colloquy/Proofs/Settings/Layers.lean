import Colloquy.Proofs.Settings.Unknown

/-! Where each setting comes from. The variable for a setting goes over what the file gives for it, and that
goes over what counts when nothing is given; one setting does not depend on the variable for another. -/

namespace Colloquy

namespace Data

variable {key : Data} {l l' : List (Data × Data)}

theorem lookup_append : lookup key (l ++ l') = (lookup key l).or (lookup key l') := by
  induction l with
  | nil => rfl
  | cons entry rest ih =>
    rw [List.cons_append, lookup, lookup, ih]
    split <;> rfl

end Data

def EngineSettings.get? (s : EngineSettings) (name : String) : Option Data :=
  match name with
  | "capitalize_first_letter" => some s.capitalize
  | "mem_size" => some s.capacity
  | "max_goto_depth" => some s.hopLimit
  | "debug" => some s.debug
  | _ => none

theorem EngineSettings.get?_set? {s s' : EngineSettings} {name : String} {value : Data} (assigned : s.set? name value = some s')
    (asked : String) : s'.get? asked = if asked = name then some value else s.get? asked := by
  unfold EngineSettings.set? at assigned
  split at assigned <;> cases assigned <;> unfold EngineSettings.get? <;> split <;> simp_all

def ScriptSettings.get? (s : ScriptSettings) (name : String) : Option Data :=
  match name with
  | "path" => some s.path
  | "seed" => some s.seed
  | _ => none

theorem ScriptSettings.get?_set? {s s' : ScriptSettings} {name : String} {value : Data} (assigned : s.set? name value = some s')
    (asked : String) : s'.get? asked = if asked = name then some value else s.get? asked := by
  unfold ScriptSettings.set? at assigned
  split at assigned <;> cases assigned <;> unfold ScriptSettings.get? <;> split <;> simp_all

def LogSettings.get? (s : LogSettings) (name : String) : Option Data :=
  match name with
  | "level" => some s.level
  | "json_format" => some s.json
  | "log_dir" => some s.folder
  | _ => none

theorem LogSettings.get?_set? {s s' : LogSettings} {name : String} {value : Data} (assigned : s.set? name value = some s')
    (asked : String) : s'.get? asked = if asked = name then some value else s.get? asked := by
  unfold LogSettings.set? at assigned
  split at assigned <;> cases assigned <;> unfold LogSettings.get? <;> split <;> simp_all

namespace Settings

variable {env : Environment} {fs : Files} {given : Option String} {useVariables : Bool} {part other : Part}
  {name : String} {value : Data} {s s' : Settings} {folder : Path} {entries settings : List (Data × Data)}

def get? (s : Settings) (part : Part) (name : String) : Option Data :=
  match part with
  | .engine => s.engine.get? name
  | .script => s.script.get? name
  | .logging => s.logging.get? name

/-- The entries of a part of a file; a part that is missing or no map has none. -/
def entriesIn (part : Part) (entries : List (Data × Data)) : List (Data × Data) :=
  ((Data.field? (partName part) entries).bind Data.entries?).getD []

/-- What a file gives for a setting. If a name were repeated, the last one would count. -/
def givenFor (entries : List (Data × Data)) (part : Part) (name : String) : Option Data :=
  Data.field? name (entriesIn part entries).reverse

/-- Whether the parts of a file have nothing but names of settings as keys. -/
def Named (entries : List (Data × Data)) : Prop :=
  ∀ part, ∀ entry ∈ entriesIn part entries, Known part entry.1

/-- The variable for a setting, if there is one. -/
def variableFor? (part : Part) (name : String) : Option Variable :=
  knownVariables.find? fun v => v.part = part ∧ v.setting = name

/-- The value of a setting by its layers: what the variable for it stands for if that is set, else what the
file gives, else what counts when nothing is given. -/
def layered (env : Environment) (entries : List (Data × Data)) (part : Part) (name : String) : Option Data :=
  match (variableFor? part name).bind fun v => env.get? v.name with
  | some text => (variableFor? part name).bind fun v => v.reading.value? text
  | none => (givenFor entries part name).or (default.get? part name)

/-- Whether the file of settings holds some entries. Without a file there are none. -/
def FileHolds (fs : Files) (given : Option String) (folder : Path) (entries : List (Data × Data)) : Prop :=
  ∃ source, sourceOf fs folder given = .ok source ∧
    source.elim (entries = []) fun p => readEntries fs p = .ok entries

/-! One setting after an assignment. -/

/-- Setting one setting changes that one and no other. -/
theorem get?_set? (assigned : s.set? part name value = some s') (other : Part) (asked : String) :
    s'.get? other asked = if other = part ∧ asked = name then some value else s.get? other asked := by
  cases part with
  | engine =>
    obtain ⟨engine, inside, rfl⟩ := Option.map_eq_some_iff.mp assigned
    cases other <;> simp [get?, EngineSettings.get?_set? inside]
  | script =>
    obtain ⟨script, inside, rfl⟩ := Option.map_eq_some_iff.mp assigned
    cases other <;> simp [get?, ScriptSettings.get?_set? inside]
  | logging =>
    obtain ⟨logging, inside, rfl⟩ := Option.map_eq_some_iff.mp assigned
    cases other <;> simp [get?, LogSettings.get?_set? inside]

theorem get?_isSome (member : name ∈ namesOf part) : (s.get? part name).isSome = true := by
  cases part with
  | engine =>
    simp only [namesOf, EngineSettings.names, List.mem_cons, List.not_mem_nil, or_false] at member
    rcases member with rfl | rfl | rfl | rfl <;> rfl
  | script =>
    simp only [namesOf, List.mem_cons, List.not_mem_nil, or_false] at member
    rcases member with rfl | rfl <;> rfl
  | logging =>
    simp only [namesOf, List.mem_cons, List.not_mem_nil, or_false] at member
    rcases member with rfl | rfl | rfl <;> rfl

/-! What the file gives. -/

theorem setEntry_known (known : name ∈ namesOf part) (s : Settings) (value : Data) :
    ∃ s', s.set? part name value = some s' ∧ setEntry part s (.text name, value) = .ok s' := by
  cases part with
  | engine =>
    simp only [namesOf, EngineSettings.names, List.mem_cons, List.not_mem_nil, or_false] at known
    rcases known with rfl | rfl | rfl | rfl <;> exact ⟨_, rfl, rfl⟩
  | script =>
    simp only [namesOf, List.mem_cons, List.not_mem_nil, or_false] at known
    rcases known with rfl | rfl <;> exact ⟨_, rfl, rfl⟩
  | logging =>
    simp only [namesOf, List.mem_cons, List.not_mem_nil, or_false] at known
    rcases known with rfl | rfl | rfl <;> exact ⟨_, rfl, rfl⟩

/-- After the entries of a part a setting has what the last entry of its name gives. -/
theorem get?_setEntries (known : ∀ entry ∈ settings, Known part entry.1)
    (taken : settings.foldlM (setEntry part) s = .ok s') (other : Part) (asked : String) :
    s'.get? other asked =
      (if other = part then Data.field? asked settings.reverse else none).or (s.get? other asked) := by
  induction settings generalizing s with
  | nil =>
    cases taken
    split <;> rfl
  | cons entry rest ih =>
    obtain ⟨⟨name, member, key⟩, later⟩ := List.forall_mem_cons.mp known
    obtain ⟨_, value⟩ := entry
    cases key
    obtain ⟨s₁, assigned, entered⟩ := setEntry_known member s value
    rw [List.foldlM_cons, entered, ok_bind] at taken
    rw [ih later taken, get?_set? assigned, List.reverse_cons, Data.field?, Data.field?, Data.lookup_append,
      Data.lookup]
    by_cases here : other = part
    · by_cases same : asked = name
      · subst same
        have found : Data.sameKey (.text asked) (.text asked) = true := Data.sameKey_text.mpr rfl
        simp [here, found]
      · have apart : ¬ Data.sameKey (.text name) (.text asked) = true :=
          fun found => same (Data.text.inj (Data.sameKey_text.mp found)).symm
        simp [here, same, apart, Data.lookup]
    · simp [here]

theorem get?_setPart (known : ∀ entry ∈ entriesIn part entries, Known part entry.1)
    (taken : setPart entries s part = .ok s') (other : Part) (asked : String) :
    s'.get? other asked =
      (if other = part then givenFor entries part asked else none).or (s.get? other asked) := by
  cases found : Data.field? (partName part) entries with
  | none =>
    rw [setPart, found] at taken
    cases taken
    have nothing : entriesIn part entries = [] := by simp [entriesIn, found]
    simp [givenFor, nothing, Data.field?, Data.lookup]
  | some block =>
    cases map : block.entries? with
    | some settings =>
      have inside : entriesIn part entries = settings := by simp [entriesIn, found, map]
      rw [setPart_of_map found map, mapError_eq_ok] at taken
      rw [inside] at known
      rw [givenFor, inside]
      exact get?_setEntries known taken other asked
    | none =>
      rw [setPart, found] at taken
      simp only [Option.getD_some, map] at taken
      split at taken
      · cases taken
        have nothing : entriesIn part entries = [] := by simp [entriesIn, found, map]
        simp [givenFor, nothing, Data.field?, Data.lookup]
      · contradiction

/-- The entries of a file are taken over part by part. -/
theorem setParts_of_withEntries (taken : s.withEntries entries = .ok s') :
    ∃ appName version, parts.foldlM (setPart entries) { s with appName, version } = .ok s' := by
  rw [withEntries] at taken
  split at taken
  · split at taken
    · exact ⟨_, _, taken⟩
    · contradiction
  · exact ⟨_, _, taken⟩

/-- After the entries of a file a setting has what they give for it, or what it had. -/
theorem get?_withEntries (named : Named entries) (taken : s.withEntries entries = .ok s') (part : Part)
    (name : String) : s'.get? part name = (givenFor entries part name).or (s.get? part name) := by
  obtain ⟨appName, version, taken⟩ := setParts_of_withEntries taken
  simp only [parts, List.foldlM_cons, List.foldlM_nil] at taken
  obtain ⟨s₁, engine, taken⟩ := bind_eq_ok.mp taken
  obtain ⟨s₂, script, taken⟩ := bind_eq_ok.mp taken
  obtain ⟨s₃, logging, taken⟩ := bind_eq_ok.mp taken
  cases taken
  rw [get?_setPart (named _) logging, get?_setPart (named _) script, get?_setPart (named _) engine]
  cases part <;> rfl

/-! What variables give. -/

theorem knownVariables_valid : ∀ v ∈ knownVariables, v.setting ∈ namesOf v.part := by decide

theorem knownVariables_named : ∀ v ∈ knownVariables, ∀ w ∈ knownVariables, v.name = w.name → v = w := by
  simp [knownVariables]

/-- No two variables give the same setting. -/
theorem knownVariables_apart :
    knownVariables.Pairwise fun v w => ¬ (w.part = v.part ∧ w.setting = v.setting) := by decide

theorem get?_setVariable {v : Variable} (valid : v.setting ∈ namesOf v.part)
    (taken : setVariable env s v = .ok s') :
    (∀ text, env.get? v.name = some text → s'.get? v.part v.setting = v.reading.value? text) ∧
      ∀ part name, ¬ (v.part = part ∧ v.setting = name ∧ env.get? v.name ≠ none) →
        s'.get? part name = s.get? part name := by
  rw [setVariable] at taken
  cases set : env.get? v.name with
  | none =>
    rw [set] at taken
    cases taken
    exact ⟨fun text given => by contradiction, fun _ _ _ => rfl⟩
  | some text =>
    rw [set] at taken
    dsimp only at taken
    cases reads : v.reading.value? text with
    | none =>
      rw [reads] at taken
      contradiction
    | some value =>
      obtain ⟨assigned, found⟩ := Option.isSome_iff_exists.mp ((set?_isSome s v.part v.setting value).mpr valid)
      simp only [reads, found, Option.getD_some] at taken
      cases taken
      constructor
      · rintro _ ⟨⟩
        rw [get?_set? found, if_pos ⟨rfl, rfl⟩, reads]
      · intro part name elsewhere
        rw [get?_set? found]
        refine if_neg ?_
        rintro ⟨rfl, rfl⟩
        exact elsewhere ⟨rfl, rfl, Option.some_ne_none text⟩

/-- Variables that are set give their settings; the others stay as they were. No two variables give the
same setting. -/
theorem get?_setVariables {vs : List Variable} (valid : ∀ v ∈ vs, v.setting ∈ namesOf v.part)
    (apart : vs.Pairwise fun v w => ¬ (w.part = v.part ∧ w.setting = v.setting))
    (taken : vs.foldlM (setVariable env) s = .ok s') :
    (∀ v ∈ vs, ∀ text, env.get? v.name = some text → s'.get? v.part v.setting = v.reading.value? text) ∧
      ∀ part name, (∀ v ∈ vs, ¬ (v.part = part ∧ v.setting = name ∧ env.get? v.name ≠ none)) →
        s'.get? part name = s.get? part name := by
  induction vs generalizing s with
  | nil =>
    cases taken
    exact ⟨fun v member => absurd member List.not_mem_nil, fun _ _ _ => rfl⟩
  | cons v rest ih =>
    obtain ⟨valid, laterValid⟩ := List.forall_mem_cons.mp valid
    obtain ⟨others, laterApart⟩ := List.pairwise_cons.mp apart
    rw [List.foldlM_cons] at taken
    obtain ⟨s₁, first, taken⟩ := bind_eq_ok.mp taken
    obtain ⟨gives, keeps⟩ := get?_setVariable valid first
    obtain ⟨laterGives, laterKeeps⟩ := ih laterValid laterApart taken
    constructor
    · intro w member text set
      rcases List.mem_cons.mp member with rfl | member
      · have untouched := laterKeeps w.part w.setting fun v member ⟨part, setting, _⟩ =>
          others v member ⟨part, setting⟩
        rw [untouched]
        exact gives text set
      · exact laterGives w member text set
    · intro part name unset
      rw [laterKeeps part name fun w member => unset w (List.mem_cons_of_mem _ member)]
      exact keeps part name (unset v List.mem_cons_self)

/-- No two variables give one setting. -/
theorem eq_of_gives : ∀ v ∈ knownVariables, ∀ w ∈ knownVariables, w.part = v.part → w.setting = v.setting →
    w = v := by
  simp [knownVariables]

theorem variableFor?_eq_some {v : Variable} :
    variableFor? part name = some v ↔ v ∈ knownVariables ∧ v.part = part ∧ v.setting = name := by
  constructor
  · intro found
    exact ⟨List.mem_of_find?_eq_some found, by simpa using List.find?_some found⟩
  · rintro ⟨known, rfl, rfl⟩
    cases found : variableFor? v.part v.setting with
    | none => simpa using List.find?_eq_none.mp found v known
    | some w =>
      have gives : w.part = v.part ∧ w.setting = v.setting := by simpa using List.find?_some found
      rw [eq_of_gives v known w (List.mem_of_find?_eq_some found) gives.1 gives.2]

/-- What the variables that are set give goes over the settings that they are put over. -/
theorem get?_withVariables (taken : s.withVariables env = .ok s') (part : Part) (name : String) :
    s'.get? part name =
      match (variableFor? part name).bind fun v => env.get? v.name with
      | some text => (variableFor? part name).bind fun v => v.reading.value? text
      | none => s.get? part name := by
  obtain ⟨gives, keeps⟩ := get?_setVariables knownVariables_valid knownVariables_apart taken
  cases found : variableFor? part name with
  | none =>
    refine keeps part name fun v known ⟨rightPart, rightName, _⟩ => ?_
    rw [variableFor?_eq_some.mpr ⟨known, rightPart, rightName⟩] at found
    contradiction
  | some v =>
    obtain ⟨known, rfl, rfl⟩ := variableFor?_eq_some.mp found
    simp only [Option.bind_some]
    cases set : env.get? v.name with
    | some text => exact gives v known text set
    | none =>
      refine keeps v.part v.setting fun w known' ⟨part, setting, other⟩ => other ?_
      rw [eq_of_gives v known w known' part setting, set]

/-! Loading. -/

/-- Settings are loaded from the entries that their file holds. -/
theorem load_of_holds (usual : env.settingsFolder = .ok folder) (holds : FileHolds fs given folder entries) :
    load env fs given useVariables = loadEntries env fs useVariables folder entries := by
  obtain ⟨source, found, holds⟩ := holds
  rw [load_eq, usual]
  change (do loadFile env fs useVariables folder (← sourceOf fs folder given)) = _
  rw [found, ok_bind]
  cases source with
  | none =>
    cases holds
    rfl
  | some p =>
    rw [loadFile, show readEntries fs p = .ok entries from holds]
    rfl

/-- Settings that are loaded come from the entries of a file, and from variables if they are used. -/
theorem loaded (done : load env fs given useVariables = .ok s) : ∃ folder entries base,
    env.settingsFolder = .ok folder ∧ FileHolds fs given folder entries ∧
      withEntries { default with folder := .text folder.text } entries = .ok base ∧
      overlaid env useVariables base = .ok s := by
  have first := done
  rw [load_eq] at first
  obtain ⟨folder, usual, first⟩ := bind_eq_ok.mp first
  obtain ⟨source, found, first⟩ := bind_eq_ok.mp first
  have usual := mapError_eq_ok.mp usual
  obtain ⟨entries, holds⟩ : ∃ entries, FileHolds fs given folder entries := by
    cases source with
    | none => exact ⟨[], none, found, rfl⟩
    | some p =>
      obtain ⟨entries, read, _⟩ := bind_eq_ok.mp first
      exact ⟨entries, some p, found, read⟩
  rw [load_of_holds usual holds] at done
  obtain ⟨base, taken, done⟩ := bind_eq_ok.mp done
  obtain ⟨s', overlaid, done⟩ := bind_eq_ok.mp done
  obtain ⟨_, _, same⟩ := bind_eq_ok.mp done
  cases same
  exact ⟨folder, entries, base, usual, holds, taken, overlaid⟩

theorem FileHolds.unique (holds : FileHolds fs given folder entries)
    {entries' : List (Data × Data)} (holds' : FileHolds fs given folder entries') : entries = entries' := by
  obtain ⟨source, found, holds⟩ := holds
  obtain ⟨source', found', holds'⟩ := holds'
  cases found.symm.trans found'
  cases source with
  | none => exact Eq.trans holds (Eq.symm holds')
  | some p => exact Except.ok.inj (Eq.trans (Eq.symm holds) holds')

theorem settingsFolder_congr {env' : Environment} {v : Variable} (known : v ∈ knownVariables)
    (same : ∀ name, name ≠ v.name → env'.get? name = env.get? name) :
    env'.settingsFolder = env.settingsFolder := by
  have apart : ∀ v ∈ knownVariables,
      "ELIZA_CONFIG_DIR" ≠ v.name ∧ "XDG_CONFIG_HOME" ≠ v.name ∧ "HOME" ≠ v.name := by decide
  obtain ⟨own, common, home⟩ := apart v known
  simp only [Environment.settingsFolder, Environment.home, same _ own, same _ common, same _ home]

/-- Every setting that is loaded has the value of its layers. A variable for one setting makes no difference to
another, and if variables are not used, the environment makes a difference only by the usual folder and by
what a tilde stands for. -/
theorem settings_layered (fs : Files) (given : Option String) :
    (∀ env folder entries s, env.settingsFolder = .ok folder → FileHolds fs given folder entries →
      Named entries → load env fs given true = .ok s → ∀ part, ∀ name ∈ namesOf part,
        ∃ value, s.get? part name = some value ∧ layered env entries part name = some value) ∧
    (∀ env env' s s', ∀ v ∈ knownVariables, (∀ name, name ≠ v.name → env'.get? name = env.get? name) →
      load env fs given true = .ok s → load env' fs given true = .ok s' →
        ∀ part name, ¬ (part = v.part ∧ name = v.setting) → s'.get? part name = s.get? part name) ∧
    ∀ env env', env'.settingsFolder = env.settingsFolder → (∀ p, env'.expand p = env.expand p) →
      load env' fs given false = load env fs given false := by
  refine ⟨?_, ?_, ?_⟩
  · intro env folder entries s usual holds named done part name member
    obtain ⟨folder', entries', base, usual', holds', taken, overlaid⟩ := loaded done
    cases usual.symm.trans usual'
    cases holds.unique holds'
    obtain ⟨value, has⟩ := Option.isSome_iff_exists.mp (get?_isSome (s := s) member)
    refine ⟨value, has, ?_⟩
    rw [← has, get?_withVariables overlaid, get?_withEntries named taken]
    rfl
  · intro env env' s s' v known same done done' part name other
    obtain ⟨folder, entries, base, usual, holds, taken, overlaid⟩ := loaded done
    obtain ⟨folder', entries', base', usual', holds', taken', overlaid'⟩ := loaded done'
    rw [settingsFolder_congr known same] at usual'
    cases usual.symm.trans usual'
    cases holds.unique holds'
    cases taken.symm.trans taken'
    have alike : ((variableFor? part name).bind fun v => env'.get? v.name) =
        (variableFor? part name).bind fun v => env.get? v.name := by
      refine Option.bind_congr fun w found => same w.name fun named => other ?_
      obtain ⟨known', rfl, rfl⟩ := variableFor?_eq_some.mp found
      have one : w = v := knownVariables_named w known' v known named
      exact ⟨congrArg Variable.part one, congrArg Variable.setting one⟩
    rw [get?_withVariables overlaid', get?_withVariables overlaid, alike]
  · intro env env' folder expands
    simp only [load, gather, folder, check, ScriptSettings.check, expands, Bool.false_eq_true, if_false]

theorem named_numbered (part : Part) {numbers : List (String × Int)} (known : ∀ n ∈ numbers, n.1 ∈ namesOf part) :
    Named (numbered (partName part) numbers) := by
  have made : numbered (partName part) numbers = Data.insert (.text (partName part))
      (.map (numbers.map fun n => (.text n.1, .int n.2))) [] := rfl
  intro other entry member
  rw [made, entriesIn] at member
  by_cases here : other = part
  · subst here
    rw [Data.field?_insert_self] at member
    obtain ⟨n, inside, rfl⟩ := List.mem_map.mp member
    exact ⟨n.1, known n inside, rfl⟩
  · rw [Data.field?_insert_of_ne fun named => here (partName_injective named)] at member
    contradiction

def sized : Files := single "engine:\n  mem_size: 5\n  max_goto_depth: 9\n"

def varied : Environment := ⟨[("HOME", "home"), ("ELIZA_ENGINE_MEM_SIZE", "7")], []⟩

theorem sized_layered : ∃ s s', load varied sized (some "c.yaml") true = .ok s ∧
    s.get? .engine "mem_size" = some (.int 7) ∧ s.get? .engine "max_goto_depth" = some (.int 9) ∧
    s.get? .logging "level" = some (.text "WARNING") ∧
    load homely sized (some "c.yaml") true = .ok s' ∧
    s'.get? .engine "max_goto_depth" = s.get? .engine "max_goto_depth" ∧
    load homely sized (some "c.yaml") false = load varied sized (some "c.yaml") false := by
  obtain ⟨layers, apart, unvaried⟩ := settings_layered sized (some "c.yaml")
  have read : readEntries sized (.parse "c.yaml") =
      .ok (numbered "engine" [("mem_size", 5), ("max_goto_depth", 9)]) :=
    readEntries_of_isNumbered (by decide +kernel)
  have there : sized.has (.parse "c.yaml") = .ok true := by decide +kernel
  have usual : varied.settingsFolder = .ok ⟨0, ["home", ".elizabot"]⟩ := by decide +kernel
  have holds : FileHolds sized (some "c.yaml") ⟨0, ["home", ".elizabot"]⟩ _ :=
    ⟨_, sourceOf_given (by decide) there _, read⟩
  have named : Named (numbered "engine" [("mem_size", 5), ("max_goto_depth", 9)]) :=
    named_numbered .engine (by decide)
  have done : (load varied sized (some "c.yaml") true).toOption.any fun _ => true := by decide +kernel
  have done' : (load homely sized (some "c.yaml") true).toOption.any fun _ => true := by decide +kernel
  obtain ⟨s, done, _⟩ := exists_of_any done
  obtain ⟨s', done', _⟩ := exists_of_any done'
  obtain ⟨_, size, sizeLayer⟩ := layers varied _ _ s usual holds named done .engine "mem_size" (by decide)
  obtain ⟨_, hops, hopsLayer⟩ := layers varied _ _ s usual holds named done .engine "max_goto_depth" (by decide)
  obtain ⟨_, level, levelLayer⟩ := layers varied _ _ s usual holds named done .logging "level" (by decide)
  have unset : ∀ name, name ≠ "ELIZA_ENGINE_MEM_SIZE" → homely.get? name = varied.get? name := by
    intro name other
    by_cases home : name = "HOME"
    · subst home
      rfl
    · simp [homely, varied, Environment.get?, List.lookup_cons, beq_false_of_ne home, beq_false_of_ne other]
  refine ⟨s, s', done, ?_, ?_, ?_, done', ?_, ?_⟩
  · rw [size, ← sizeLayer]
    exact Data.eq_some_of_isSame (by decide +kernel)
  · rw [hops, ← hopsLayer]
    exact Data.eq_some_of_isSame (by decide +kernel)
  · rw [level, ← levelLayer]
    exact Data.eq_some_of_isSame (by decide +kernel)
  · have known : ⟨"ELIZA_ENGINE_MEM_SIZE", .engine, "mem_size", .number⟩ ∈ knownVariables := by simp [knownVariables]
    exact apart varied homely s s' _ known unset done done' .engine "max_goto_depth" (by decide)
  · refine unvaried varied homely (by decide +kernel) fun p => ?_
    simp only [Environment.expand, Environment.home, unset "HOME" (by decide)]
    rfl

end Settings
end Colloquy
