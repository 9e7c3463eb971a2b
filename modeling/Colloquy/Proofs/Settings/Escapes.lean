import Colloquy.Proofs.Data
import Colloquy.Proofs.Told
import Colloquy.Settings.Stored

/-! When the loading of settings ends with settings that pass their check or with a problem that is
reported as one of settings. Anything else escapes: names that cannot be assigned to, values of a kind
that a check does not expect, and places that cannot be looked at. -/

namespace Colloquy

variable {α β : Type}

/-- Whether a problem with settings shows a value that has no text. -/
def SettingsProblem.Hidden (p : SettingsProblem) : Prop := ∃ value ∈ p.shownValues, value.isShowable = false

theorem told_settings (p : SettingsProblem) :
    Told .settings (.error (.settings p) : Except Failure α) ↔ ¬ p.Hidden := by
  have family : p.report.family = .settings := by cases p <;> rfl
  refine told_because (p := .settings p) ?_
  rw [Problem.report, family]
  decide

theorem told_settings_plain {p : SettingsProblem} (plain : p.shownValues = []) :
    Told .settings (.error (.settings p) : Except Failure α) := by
  rw [told_settings, SettingsProblem.Hidden, plain]
  simp

theorem told_mapError_settings {x : Except SettingsProblem α} :
    Told .settings (x.mapError .settings) ↔ ¬ ∃ p, x = .error p ∧ p.Hidden := by
  cases x with
  | ok a => exact iff_of_true (told_ok a) (by simp)
  | error p => exact (told_settings p).trans (by simp)

theorem told_mapError_breakdown {family : Family} {x : Except Breakdown α} :
    Told family (x.mapError .breakdown) ↔ ¬ ∃ b, x = .error b := by
  cases x with
  | ok a => exact iff_of_true (told_ok a) (by simp)
  | error b => exact iff_of_false (not_told_breakdown b) (by simp)

namespace Settings

variable {s : Settings} {entries : List (Data × Data)} {env : Environment} {fs : Files}
  {given : Option String} {useVariables : Bool}

/-! The entries of a part. Whether one can be assigned does not depend on what was assigned before. -/

/-- The ways in which an entry of a part escapes: its key is no text, or a name that takes no value or
not this one. -/
inductive EntryEscapes (entry : Data × Data) : Prop
  | key (other : ∀ name, entry.1 ≠ .text name)
  | kind (name : entry.1 = .text "__class__")
  | reference (name : entry.1 = .text "__weakref__")
  | whole (name : entry.1 = .text "__dict__") (other : entry.2.entries? = none)

theorem setEntry_ok_iff (part : Part) (s : Settings) (entry : Data × Data) :
    (∃ s', setEntry part s entry = .ok s') ↔ ¬ EntryEscapes entry := by
  rw [setEntry]
  split
  · next name => exact iff_of_false (by simp) (not_not_intro (.kind name))
  · next name => exact iff_of_false (by simp) (not_not_intro (.reference name))
  · next found name there =>
    refine iff_of_true ⟨_, rfl⟩ fun escapes => ?_
    cases escapes with
    | key other => exact other _ name
    | kind name' => simp [name] at name'
    | reference name' => simp [name] at name'
    | whole _ none => simp [there] at none
  · next name none => exact iff_of_false (by simp) (not_not_intro (.whole name none))
  · next name notKind notReference named notWhole notWhole' =>
    refine iff_of_true ⟨_, rfl⟩ fun escapes => ?_
    cases escapes with
    | key other => exact other name named
    | kind same => exact notKind (Data.text.inj (named.symm.trans same))
    | reference same => exact notReference (Data.text.inj (named.symm.trans same))
    | whole same none => exact notWhole' none (Data.text.inj (named.symm.trans same))
  · next other _ _ => exact iff_of_false (by simp) (not_not_intro (.key other))

/-- Entries of a part are taken over just if none of them escapes. -/
theorem setEntries_ok_iff (part : Part) (s : Settings) (settings : List (Data × Data)) :
    (∃ s', settings.foldlM (setEntry part) s = .ok s') ↔ ¬ ∃ entry ∈ settings, EntryEscapes entry := by
  rw [foldlM_ok_iff (setEntry_ok_iff part)]
  exact ⟨fun fine ⟨entry, member, escapes⟩ => fine entry member escapes,
    fun none entry member escapes => none ⟨entry, member, escapes⟩⟩

/-- Whether a part of a data file escapes: it is a map, and an entry of it escapes. -/
def PartEscapes (entries : List (Data × Data)) (part : Part) : Prop :=
  ∃ value, Data.field? (partName part) entries = some value ∧
    ∃ settings, value.entries? = some settings ∧ ∃ entry ∈ settings, EntryEscapes entry

theorem told_setPart (entries : List (Data × Data)) (s : Settings) (part : Part) :
    Told .settings (setPart entries s part) ↔ ¬ PartEscapes entries part := by
  rw [setPart, PartEscapes]
  cases Data.field? (partName part) entries with
  | none => exact iff_of_true (told_ok s) (by simp)
  | some value =>
    simp only [Option.getD_some, Option.some.injEq, exists_eq_left']
    cases truthy : value.isTruthy with
    | false =>
      refine iff_of_true (told_ok s) ?_
      rintro ⟨settings, apart, entry, member, _⟩
      rw [Data.entries_eq_nil truthy apart] at member
      contradiction
    | true =>
      cases value.entries? with
      | none => exact iff_of_true (told_settings_plain rfl) (by simp)
      | some settings =>
        simp only [Option.some.injEq, exists_eq_left']
        exact (told_mapError_breakdown.trans exists_ok_iff.symm).trans (setEntries_ok_iff part s settings)

/-- Whether a part is taken over does not depend on the settings before it. -/
theorem setPart_alike (entries : List (Data × Data)) (s s' : Settings) (part : Part)
    (done : ∃ c, setPart entries s part = .ok c) : ∃ c, setPart entries s' part = .ok c := by
  rw [setPart] at done ⊢
  generalize (Data.field? (partName part) entries).getD .null = value at done ⊢
  cases truthy : value.isTruthy with
  | false => exact ⟨s', rfl⟩
  | true =>
    rw [truthy] at done
    cases apart : value.entries? with
    | none =>
      rw [apart] at done
      obtain ⟨_, refused⟩ := done
      contradiction
    | some settings =>
      rw [apart] at done
      obtain ⟨c, taken⟩ := done
      have fine := (setEntries_ok_iff part s settings).mp ⟨c, mapError_eq_ok.mp taken⟩
      obtain ⟨c', taken'⟩ := (setEntries_ok_iff part s' settings).mpr fine
      exact ⟨c', mapError_eq_ok.mpr taken'⟩

/-- The ways in which the entries of a data file escape: the version has no text, or a part escapes
before any is refused. -/
inductive EntriesEscape (entries : List (Data × Data)) : Prop
  | version {value : Data} (found : Data.field? "version" entries = some value)
    (hidden : value.isShowable = false)
  | part (first : FirstOf (setPart entries .default) (PartEscapes entries) parts)

/-- Taking over the entries of a file ends in a report just if they do not escape. -/
theorem told_withEntries (s : Settings) (entries : List (Data × Data)) :
    Told .settings (s.withEntries entries) ↔ ¬ EntriesEscape entries := by
  have later (s : Settings) : Told .settings (parts.foldlM (setPart entries) s) ↔
      ¬ FirstOf (setPart entries .default) (PartEscapes entries) parts :=
    told_foldlM (told_setPart entries) (setPart_alike entries) .default parts s
  rw [withEntries]
  cases named : Data.field? "version" entries with
  | none =>
    refine (later _).trans (not_congr ⟨.part, fun escapes => ?_⟩)
    cases escapes with
    | version found _ => cases named.symm.trans found
    | part first => exact first
  | some value =>
    dsimp only
    rw [Data.plain?]
    cases shown : value.isShowable with
    | false => exact iff_of_false (not_told_breakdown _) (not_not_intro (.version named shown))
    | true =>
      refine (later _).trans (not_congr ⟨.part, fun escapes => ?_⟩)
      cases escapes with
      | version found hidden =>
        cases named.symm.trans found
        cases shown.symm.trans hidden
      | part first => exact first

/-! Variables. -/

theorem told_setVariable (env : Environment) (s : Settings) (v : Variable) :
    Told .settings (setVariable env s v) := by
  rw [setVariable]
  split
  · exact told_ok s
  · split
    · exact told_ok _
    · exact told_settings_plain rfl

/-- A variable whose text cannot be read is reported. -/
theorem told_withVariables (s : Settings) (env : Environment) : Told .settings (s.withVariables env) :=
  told_foldlM_always (told_setVariable env) knownVariables s

end Settings

/-! The check of which script is used. -/

namespace ScriptSettings

variable {env : Environment} {fs : Files} {s : ScriptSettings}

/-- The path that is given, if a file stands there. -/
def located (env : Environment) (fs : Files) (s : ScriptSettings) : Except Failure (Option String) := do
  match ← s.pathGiven with
  | none => return none
  | some path =>
    let p ← (env.expand (.parse path)).mapError .breakdown
    if ← (fs.hasFile p).mapError .breakdown then return some path else throw (.settings (.noScript path))

/-- The seed that is given beside a path. -/
def seeded (s : ScriptSettings) (path : Option String) : Except Failure ScriptOptions :=
  match s.seed with
  | .null => return ⟨path, none⟩
  | .int seed => return ⟨path, some seed⟩
  | value => throw (.settings (.badSeed value))

theorem check_eq (env : Environment) (fs : Files) (s : ScriptSettings) :
    s.check env fs = s.located env fs >>= s.seeded := by
  rw [check, located, bind_assoc]
  refine bind_congr fun path => ?_
  cases path with
  | none => rfl
  | some path =>
    dsimp only
    cases env.expand (.parse path) with
    | error b => rfl
    | ok p =>
      dsimp only [Except.mapError]
      rw [ok_bind]
      cases fs.hasFile p with
      | error b => rfl
      | ok there => cases there <;> rfl

/-- The ways in which a path cannot be looked at: it names a home that is not known, or the file system
refuses to tell what is there. -/
inductive PathLost (env : Environment) (fs : Files) (path : String) : Prop
  | home {b : Breakdown} (unknown : env.expand (.parse path) = .error b)
  | place {p : Path} {b : Breakdown} (found : env.expand (.parse path) = .ok p)
    (refused : fs.hasFile p = .error b)

/-- The ways in which the check escapes: the path is no text or cannot be looked at, or the seed is no
number and has no text. -/
inductive Escapes (env : Environment) (fs : Files) (s : ScriptSettings) : Prop
  | kind (given : s.path.isTruthy = true) (other : ∀ path, s.path ≠ .text path)
  | path {path : String} (given : s.pathGiven = .ok (some path)) (lost : PathLost env fs path)
  | seed {path : Option String} (found : s.located env fs = .ok path) (given : s.seed ≠ .null)
    (other : ∀ seed, s.seed ≠ .int seed) (hidden : s.seed.isShowable = false)

theorem told_pathGiven : Told .settings s.pathGiven ↔
    ¬ (s.path.isTruthy = true ∧ ∀ path, s.path ≠ .text path) := by
  rw [pathGiven]
  cases truthy : s.path.isTruthy with
  | false => exact iff_of_true (told_ok none) (by simp)
  | true =>
    simp only [Bool.not_true, Bool.false_eq_true, if_false, true_and]
    split
    · next path named => exact iff_of_true (told_ok _) fun other => other path named
    · next other => exact iff_of_false (not_told_breakdown _) (not_not_intro other)

theorem told_seeded (path : Option String) : Told .settings (s.seeded path) ↔
    ¬ (s.seed ≠ .null ∧ (∀ seed, s.seed ≠ .int seed) ∧ s.seed.isShowable = false) := by
  rw [seeded]
  split
  · next none => exact iff_of_true (told_ok _) fun escapes => escapes.1 none
  · next seed number => exact iff_of_true (told_ok _) fun escapes => escapes.2.1 seed number
  · next given other =>
    refine (told_settings _).trans (not_congr ?_)
    simp only [SettingsProblem.Hidden, SettingsProblem.shownValues, List.mem_singleton, exists_eq_left]
    exact ⟨fun hidden => ⟨given, other, hidden⟩, fun escapes => escapes.2.2⟩

theorem told_placed (path : String) : Told .settings (do
    let p ← (env.expand (.parse path)).mapError .breakdown
    if ← (fs.hasFile p).mapError .breakdown then return some path
    else throw (.settings (.noScript path)) : Except Failure (Option String)) ↔
      ¬ PathLost env fs path := by
  have looked (p : Path) : Told .settings (do
      if ← (fs.hasFile p).mapError .breakdown then return some path
      else throw (.settings (.noScript path)) : Except Failure (Option String)) ↔
        ¬ ∃ b, fs.hasFile p = .error b := by
    refine told_bind_left told_mapError_breakdown fun there => ?_
    cases there with
    | true => exact told_ok _
    | false => exact told_settings_plain rfl
  rw [told_bind told_mapError_breakdown fun p _ => looked p]
  simp only [mapError_eq_ok]
  refine not_congr ?_
  constructor
  · rintro (⟨b, unknown⟩ | ⟨p, found, b, refused⟩)
    · exact .home unknown
    · exact .place found refused
  · intro lost
    cases lost with
    | home unknown => exact .inl ⟨_, unknown⟩
    | place found refused => exact .inr ⟨_, found, _, refused⟩

/-- The path that is given is found or reported, unless it is no text or cannot be looked at. -/
theorem told_located : Told .settings (s.located env fs) ↔
    ¬ ((s.path.isTruthy = true ∧ ∀ path, s.path ≠ .text path) ∨
      ∃ path, s.pathGiven = .ok (some path) ∧ PathLost env fs path) := by
  have next (given : Option String) : Told .settings (match given with
      | none => return none
      | some path => do
        let p ← (env.expand (.parse path)).mapError .breakdown
        if ← (fs.hasFile p).mapError .breakdown then return some path
        else throw (.settings (.noScript path)) : Except Failure (Option String)) ↔
          ¬ ∃ path, given = some path ∧ PathLost env fs path := by
    cases given with
    | none => exact iff_of_true (told_ok none) (by simp)
    | some path => simpa using told_placed path
  rw [located, told_bind told_pathGiven fun given _ => next given]
  refine not_congr (or_congr_right ?_)
  constructor
  · rintro ⟨_, given, path, rfl, lost⟩
    exact ⟨path, given, lost⟩
  · rintro ⟨path, given, lost⟩
    exact ⟨_, given, path, rfl, lost⟩

theorem told_check : Told .settings (s.check env fs) ↔ ¬ s.Escapes env fs := by
  rw [check_eq, told_bind told_located fun path _ => told_seeded path]
  refine not_congr ?_
  constructor
  · rintro ((⟨given, other⟩ | ⟨path, given, lost⟩) | ⟨path, found, given, other, hidden⟩)
    · exact .kind given other
    · exact .path given lost
    · exact .seed found given other hidden
  · intro escapes
    cases escapes with
    | kind given other => exact .inl (.inl ⟨given, other⟩)
    | path given lost => exact .inl (.inr ⟨_, given, lost⟩)
    | seed found given other hidden => exact .inr ⟨_, found, given, other, hidden⟩

end ScriptSettings

namespace LogSettings

theorem told_check (s : LogSettings) : Told .settings s.check ↔
    ¬ ((∀ name, s.level ≠ .text name) ∧ ∀ bs, s.level ≠ .bytes bs) := by
  rw [check]
  split
  · next name named =>
    refine iff_of_true ?_ fun other => other.1 name named
    split
    · exact told_ok _
    · exact told_settings_plain rfl
  · next bs spelled => exact iff_of_true (told_settings_plain rfl) fun other => other.2 bs spelled
  · next text bytes => exact iff_of_false (not_told_breakdown _) (not_not_intro ⟨text, bytes⟩)

end LogSettings

namespace Settings

variable {s : Settings} {env : Environment} {fs : Files} {given : Option String} {useVariables : Bool}

/-! All of the check. -/

/-- The ways in which the check of settings escapes: a part can no longer be checked, a size that is none
has no text, the check of which script is used escapes, or the level is neither a text nor bytes. Each
part is looked at only after those before it have passed. -/
inductive CheckEscapes (env : Environment) (fs : Files) (s : Settings) : Prop
  | engine (blocked : .engine ∈ s.blocked)
  | size {p : SettingsProblem} (refused : s.engine.check = .error p) (hidden : p.Hidden)
  | script {o : Options} (engine : s.engine.check = .ok o)
    (escapes : .script ∈ s.blocked ∨ s.script.Escapes env fs)
  | logging {o : Options} {chosen : ScriptOptions} (engine : s.engine.check = .ok o)
    (script : s.script.check env fs = .ok chosen)
    (escapes : .logging ∈ s.blocked ∨
      (∀ name, s.logging.level ≠ .text name) ∧ ∀ bs, s.logging.level ≠ .bytes bs)

theorem told_checkable {x : Except Failure α} {P : Prop} (part : Part)
    (next : Told .settings x ↔ ¬ P) :
    Told .settings (s.checkable part >>= fun _ => x) ↔ ¬ (part ∈ s.blocked ∨ P) := by
  rw [checkable]
  split
  · next blocked => exact iff_of_false (not_told_breakdown _) (not_not_intro (.inl blocked))
  · next free => exact next.trans (not_congr (or_iff_right free).symm)

theorem told_check : Told .settings (s.check env fs) ↔ ¬ s.CheckEscapes env fs := by
  have logging (o : Options) (chosen : ScriptOptions) := told_checkable (s := s) .logging
    (told_bind_done (LogSettings.told_check s.logging) fun level => ⟨(⟨o, chosen, level⟩ : Meaning), rfl⟩)
  have chosen : Told .settings (s.script.check env fs) ↔ ¬ s.script.Escapes env fs :=
    ScriptSettings.told_check
  have script (o : Options) := told_checkable (s := s) .script
    (told_bind chosen fun options _ => logging o options)
  refine (told_checkable .engine (told_bind told_mapError_settings fun o _ => script o)).trans
    (not_congr ?_)
  simp only [mapError_eq_ok]
  constructor
  · rintro (blocked | ⟨p, refused, hidden⟩ | ⟨o, engine, blocked | escapes | ⟨chosen, script, escapes⟩⟩)
    · exact .engine blocked
    · exact .size refused hidden
    · exact .script engine (.inl blocked)
    · exact .script engine (.inr escapes)
    · exact .logging engine script escapes
  · intro escapes
    cases escapes with
    | engine blocked => exact .inl blocked
    | size refused hidden => exact .inr (.inl ⟨_, refused, hidden⟩)
    | script engine escapes =>
      rcases escapes with blocked | escapes
      · exact .inr (.inr ⟨_, engine, .inl blocked⟩)
      · exact .inr (.inr ⟨_, engine, .inr (.inl escapes)⟩)
    | logging engine script escapes => exact .inr (.inr ⟨_, engine, .inr (.inr ⟨_, script, escapes⟩)⟩)

/-! Loading. -/

/-- Whether the loading of settings ends with settings that pass their check, or with a problem that is
reported as one of settings. -/
def Loads (env : Environment) (fs : Files) (x : Except Failure Settings) : Prop :=
  (∃ s m, x = .ok s ∧ s.check env fs = .ok m) ∨
    ∃ p, x = .error (.reported p) ∧ .settings ∈ p.report.family.ancestry

/-- The ways in which the loading of settings escapes: the usual place is not known, the place of the
file cannot be looked at, its bytes or values cannot be read, an entry of it escapes, or the check of
what has been gathered. -/
inductive Escapes (env : Environment) (fs : Files) (given : Option String) (useVariables : Bool) : Prop
  | folder {b : Breakdown} (unknown : env.settingsFolder = .error b)
  | place {folder : Path} {b : Breakdown} (usual : env.settingsFolder = .ok folder)
    (refused : sourceOf fs folder given = .error (.breakdown b))
  | reading {folder p : Path} {b : Breakdown} (usual : env.settingsFolder = .ok folder)
    (found : sourceOf fs folder given = .ok (some p)) (refused : readEntries fs p = .error (.breakdown b))
  | entries {folder p : Path} {entries : List (Data × Data)} (usual : env.settingsFolder = .ok folder)
    (found : sourceOf fs folder given = .ok (some p)) (read : readEntries fs p = .ok entries)
    (escapes : EntriesEscape entries)
  | check {s : Settings} (gathered : gather env fs given useVariables = .ok s)
    (escapes : s.CheckEscapes env fs)

theorem told_sourceOf (fs : Files) (folder : Path) (given : Option String) :
    Told .settings (sourceOf fs folder given) ↔
      ¬ ∃ b, sourceOf fs folder given = .error (.breakdown b) := by
  refine told_iff_of_or ?_
  rw [sourceOf]
  split
  · next path _ =>
    dsimp only
    cases fs.has (.parse path) with
    | error b => exact .inr ⟨b, rfl⟩
    | ok there =>
      cases there with
      | true => exact .inl (told_ok _)
      | false => exact .inl (told_settings_plain rfl)
  · dsimp only
    cases fs.has (folder.child fileName) with
    | error b => exact .inr ⟨b, rfl⟩
    | ok there => exact .inl (told_ok _)

theorem told_readEntries (fs : Files) (p : Path) : Told .settings (readEntries fs p) ↔
    ¬ ∃ b, readEntries fs p = .error (.breakdown b) := by
  refine told_iff_of_or ?_
  rw [readEntries]
  split
  · exact .inl (told_settings_plain rfl)
  · exact .inr ⟨_, rfl⟩
  · split
    · exact .inl (told_settings_plain rfl)
    · exact .inr ⟨_, rfl⟩
    · split
      · exact .inl (told_ok _)
      · split
        · exact .inl (told_ok _)
        · exact .inl (told_settings_plain rfl)

/-- The settings from a file over those that there are, if there is one. -/
def withFile (fs : Files) (s : Settings) : Option Path → Except Failure Settings
  | some p => do s.withEntries (← readEntries fs p)
  | none => return s

/-- Settings are gathered from the place of the file, its entries and then the variables. -/
theorem gather_eq : gather env fs given useVariables = do
    let folder ← env.settingsFolder.mapError .breakdown
    let source ← sourceOf fs folder given
    let s ← withFile fs { default with folder := .text folder.text } source
    if useVariables then s.withVariables env else return s := by
  rw [gather]
  refine bind_congr fun folder => bind_congr fun source => ?_
  cases source with
  | none => rfl
  | some p => exact (bind_assoc _ _ _).symm

theorem told_withFile (s : Settings) (source : Option Path) : Told .settings (withFile fs s source) ↔
    ¬ ∃ p, source = some p ∧ ((∃ b, readEntries fs p = .error (.breakdown b)) ∨
      ∃ entries, readEntries fs p = .ok entries ∧ EntriesEscape entries) := by
  cases source with
  | none => exact iff_of_true (told_ok s) (by simp)
  | some p =>
    simp only [Option.some.injEq, exists_eq_left']
    exact told_bind (told_readEntries fs p) fun entries _ => told_withEntries s entries

/-- Variables add nothing that escapes. -/
theorem told_gather : Told .settings (gather env fs given useVariables) ↔
    ¬ ((∃ b, env.settingsFolder = .error b) ∨ ∃ folder, env.settingsFolder = .ok folder ∧
      ((∃ b, sourceOf fs folder given = .error (.breakdown b)) ∨
        ∃ source, sourceOf fs folder given = .ok source ∧ ∃ p, source = some p ∧
          ((∃ b, readEntries fs p = .error (.breakdown b)) ∨
            ∃ entries, readEntries fs p = .ok entries ∧ EntriesEscape entries))) := by
  rw [gather_eq]
  have overlaid (s : Settings) :
      Told .settings (if useVariables then s.withVariables env else return s) := by
    split
    · exact told_withVariables s env
    · exact told_ok s
  refine (told_bind told_mapError_breakdown fun folder _ =>
    told_bind (told_sourceOf fs folder given) fun source _ =>
      told_bind_left (told_withFile _ source) overlaid).trans ?_
  simp only [mapError_eq_ok]

/-- Loading settings ends as it should just if it is done or told. -/
theorem loads_iff_told : Loads env fs (load env fs given useVariables) ↔
    Told .settings (load env fs given useVariables) := by
  rw [Loads, Told]
  refine or_congr_left ?_
  constructor
  · rintro ⟨s, _, done, _⟩
    exact ⟨s, done⟩
  · rintro ⟨s, done⟩
    rw [load] at done
    obtain ⟨_, gathered, done⟩ := bind_eq_ok.mp done
    obtain ⟨m, checked, same⟩ := bind_eq_ok.mp done
    cases same
    refine ⟨s, m, ?_, checked⟩
    rw [load, gathered, ok_bind, checked]
    rfl

/-- Loading ends with settings that pass their check, or with a reported problem of settings, just if
nothing escapes. -/
theorem loads_iff (env : Environment) (fs : Files) (given : Option String) (useVariables : Bool) :
    Loads env fs (load env fs given useVariables) ↔ ¬ Escapes env fs given useVariables := by
  rw [loads_iff_told, load]
  refine (told_bind told_gather fun s _ => told_bind_done told_check fun _ => ⟨s, rfl⟩).trans
    (not_congr ?_)
  constructor
  · rintro ((⟨b, unknown⟩ | ⟨folder, usual, ⟨b, refused⟩ |
      ⟨_, found, p, rfl, ⟨b, refused⟩ | ⟨entries, read, escapes⟩⟩⟩) | ⟨s, gathered, escapes⟩)
    · exact .folder unknown
    · exact .place usual refused
    · exact .reading usual found refused
    · exact .entries usual found read escapes
    · exact .check gathered escapes
  · intro escapes
    cases escapes with
    | folder unknown => exact .inl (.inl ⟨_, unknown⟩)
    | place usual refused => exact .inl (.inr ⟨_, usual, .inl ⟨_, refused⟩⟩)
    | reading usual found refused =>
      exact .inl (.inr ⟨_, usual, .inr ⟨_, found, _, rfl, .inl ⟨_, refused⟩⟩⟩)
    | entries usual found read escapes =>
      exact .inl (.inr ⟨_, usual, .inr ⟨_, found, _, rfl, .inr ⟨_, read, escapes⟩⟩⟩)
    | check gathered escapes => exact .inr ⟨_, gathered, escapes⟩

def homely : Environment := ⟨[("HOME", "home")], []⟩

def levelled : Files := ⟨[(⟨0, ["c.yaml"]⟩, .text "logging:\n  level: 5\n")]⟩

def stoppedBy? (x : Except Failure α) : Option Breakdown :=
  match x with
  | .error (.breakdown b) => some b
  | _ => none

theorem of_stoppedBy? {x : Except Failure α} {b : Breakdown} (stopped : stoppedBy? x = some b) :
    x = .error (.breakdown b) := by
  cases x with
  | ok a => cases stopped
  | error f =>
    cases f with
    | reported p => cases stopped
    | breakdown b' =>
      cases stopped
      rfl

theorem levelled_escapes :
    (∃ entries, readEntries levelled (.parse "c.yaml") = .ok entries) ∧
      load homely levelled (some "c.yaml") true = .error (.breakdown .missingPart) ∧
      ¬ Loads homely levelled (load homely levelled (some "c.yaml") true) := by
  have read : (readEntries levelled (.parse "c.yaml")).toOption.any fun _ => true := by decide +kernel
  obtain ⟨entries, read, _⟩ := exists_of_any read
  have failed : load homely levelled (some "c.yaml") true = .error (.breakdown .missingPart) :=
    of_stoppedBy? (by decide +kernel)
  refine ⟨⟨entries, read⟩, failed, ?_⟩
  rw [failed]
  rintro (⟨_, _, done, _⟩ | ⟨_, reported, _⟩)
  · cases done
  · cases reported

end Settings
end Colloquy
