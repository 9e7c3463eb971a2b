import Colloquy.CommandLine.Run
import Colloquy.Proofs.Failure
import Colloquy.Proofs.Settings.Escapes

/-! Settings from values under other marks. They are taken over, checked and saved like those without them, and
mean the same. -/

namespace Colloquy

open Data

variable {ρ : Renumbering}

def EngineSettings.renumbered (ρ : Renumbering) (s : EngineSettings) : EngineSettings :=
  ⟨s.capitalize.renumbered ρ, s.capacity.renumbered ρ, s.hopLimit.renumbered ρ, s.debug.renumbered ρ⟩

theorem EngineSettings.set?_renumbered (s : EngineSettings) (name : String) (value : Data) :
    (s.renumbered ρ).set? name (value.renumbered ρ) = (s.set? name value).map (renumbered ρ) := by
  unfold set?
  split <;> rfl

def ScriptSettings.renumbered (ρ : Renumbering) (s : ScriptSettings) : ScriptSettings :=
  ⟨s.path.renumbered ρ, s.seed.renumbered ρ⟩

theorem ScriptSettings.set?_renumbered (s : ScriptSettings) (name : String) (value : Data) :
    (s.renumbered ρ).set? name (value.renumbered ρ) = (s.set? name value).map (renumbered ρ) := by
  unfold set?
  split <;> rfl

def LogSettings.renumbered (ρ : Renumbering) (s : LogSettings) : LogSettings :=
  ⟨s.level.renumbered ρ, s.json.renumbered ρ, s.folder.renumbered ρ⟩

theorem LogSettings.set?_renumbered (s : LogSettings) (name : String) (value : Data) :
    (s.renumbered ρ).set? name (value.renumbered ρ) = (s.set? name value).map (renumbered ρ) := by
  unfold set?
  split <;> rfl

/-- Settings with all values under other marks. -/
def Settings.renumbered (ρ : Renumbering) (s : Settings) : Settings :=
  { s with
    appName := s.appName.renumbered ρ
    version := s.version.renumbered ρ
    engine := s.engine.renumbered ρ
    script := s.script.renumbered ρ
    logging := s.logging.renumbered ρ
    folder := s.folder.renumbered ρ }

theorem EngineSettings.check_renumbered (s : EngineSettings) :
    (s.renumbered ρ).check = s.check.mapError (SettingsProblem.renumbered ρ) := by
  obtain ⟨capitalize, capacity, hopLimit, debug⟩ := s
  simp only [renumbered, check, isTruthy_renumbered]
  cases capacity with
  | int capacity =>
    cases capacity with
    | ofNat capacity =>
      cases hopLimit with
      | int hopLimit => rcases hopLimit with (_ | _) | _ <;> rfl
      | _ => rfl
    | negSucc _ => rfl
  | _ => rfl

theorem ScriptSettings.located_renumbered (env : Environment) (fs : Files) (s : ScriptSettings) :
    (s.renumbered ρ).located env fs = (s.located env fs).mapError (Failure.renumbered ρ) := by
  have given : (s.renumbered ρ).pathGiven = s.pathGiven.mapError (Failure.renumbered ρ) := by
    obtain ⟨path, seed⟩ := s
    simp only [renumbered, pathGiven, isTruthy_renumbered]
    split
    · rfl
    · cases path <;> rfl
  simp only [located, given, mapError_bind]
  refine bind_congr fun path => ?_
  cases path with
  | none => rfl
  | some path =>
    simp only [mapError_bind, Failure.mapError_breakdown]
    refine bind_congr fun p => bind_congr fun there => ?_
    split
    · rfl
    · exact (Failure.mapError_settings (.noScript path)).symm

theorem ScriptSettings.check_renumbered (env : Environment) (fs : Files) (s : ScriptSettings) :
    (s.renumbered ρ).check env fs = (s.check env fs).mapError (Failure.renumbered ρ) := by
  have seeded (path : Option String) :
      (s.renumbered ρ).seeded path = (s.seeded path).mapError (Failure.renumbered ρ) := by
    obtain ⟨given, seed⟩ := s
    cases seed with
    | null | int _ => rfl
    | _ => exact (Failure.mapError_settings (.badSeed _)).symm
  rw [check_eq, check_eq, located_renumbered, mapError_bind]
  exact bind_congr seeded

theorem LogSettings.check_renumbered (s : LogSettings) :
    (s.renumbered ρ).check = s.check.mapError (Failure.renumbered ρ) := by
  obtain ⟨level, json, folder⟩ := s
  cases level with
  | text name =>
    simp only [renumbered, Data.renumbered, check]
    cases Log.Level.named? name with
    | some level => rfl
    | none => exact (Failure.mapError_settings (.badLevel name)).symm
  | bytes bs => exact (Failure.mapError_settings (.badLevel (Text.quotedBytes bs))).symm
  | _ => rfl

namespace Settings

theorem renumbered_refl (s : Settings) : s.renumbered (.refl _) = s := by
  simp only [renumbered, EngineSettings.renumbered, ScriptSettings.renumbered, LogSettings.renumbered,
    Data.renumbered_refl]

theorem set?_renumbered (s : Settings) (part : Part) (name : String) (value : Data) :
    (s.renumbered ρ).set? part name (value.renumbered ρ) = (s.set? part name value).map (renumbered ρ) := by
  cases part with
  | engine =>
    simp only [set?, renumbered, EngineSettings.set?_renumbered]
    cases s.engine.set? name value <;> rfl
  | script =>
    simp only [set?, renumbered, ScriptSettings.set?_renumbered]
    cases s.script.set? name value <;> rfl
  | logging =>
    simp only [set?, renumbered, LogSettings.set?_renumbered]
    cases s.logging.set? name value <;> rfl

theorem set?_getD_renumbered (s : Settings) (part : Part) (name : String) (value : Data) :
    ((s.renumbered ρ).set? part name (value.renumbered ρ)).getD (s.renumbered ρ) =
      ((s.set? part name value).getD s).renumbered ρ := by
  rw [set?_renumbered, Option.getD_map]

theorem listingOf_renumbered (value : Data) : listingOf (value.renumbered ρ) = listingOf value := by
  rw [listingOf, listingOf, entries?_renumbered]
  cases value.entries? with
  | none => rfl
  | some entries => cases entries <;> rfl

theorem assignEntry_renumbered (s : Settings) (part : Part) (name : String) (value : Data) :
    (s.renumbered ρ).assignEntry part name (value.renumbered ρ) = (s.assignEntry part name value).renumbered ρ := by
  rw [assignEntry, assignEntry, listingOf_renumbered, set?_getD_renumbered]
  split
  · rfl
  · split <;> rfl

theorem reset_renumbered (s : Settings) (part : Part) : (s.renumbered ρ).reset part = (s.reset part).renumbered ρ := by
  cases part <;> rfl

theorem replacePart_renumbered (s : Settings) (part : Part) (entries : List (Data × Data)) :
    (s.renumbered ρ).replacePart part (renumberedEntries ρ entries) = (s.replacePart part entries).renumbered ρ := by
  rw [replacePart, replacePart, reset_renumbered, renumberedEntries_eq_map, List.foldl_map]
  generalize s.reset part = s
  induction entries generalizing s with
  | nil => rfl
  | cons entry rest ih =>
    obtain ⟨key, value⟩ := entry
    rw [List.foldl_cons, List.foldl_cons, ← ih]
    refine congrArg (List.foldl _ · rest) ?_
    cases key with
    | text name => exact assignEntry_renumbered s part name value
    | _ => rfl

theorem setEntry_text (part : Part) (s : Settings) (name : String) (value : Data) :
    setEntry part s (.text name, value) =
      if name = "__class__" then .error .wrongKind
      else if name = "__weakref__" then .error .missingPart
      else if name = "__dict__" then
        value.entries?.elim (.error .wrongKind) fun entries => .ok (s.replacePart part entries)
      else .ok (s.assignEntry part name value) := by
  rw [setEntry]
  cases value.entries? <;> split <;> simp_all

theorem setEntry_renumbered (part : Part) (s : Settings) (entry : Data × Data) :
    setEntry part (s.renumbered ρ) (entry.map (Data.renumbered ρ) (Data.renumbered ρ)) =
      (setEntry part s entry).map (renumbered ρ) := by
  obtain ⟨key, value⟩ := entry
  cases key with
  | text name =>
    dsimp only [Prod.map, Data.renumbered]
    rw [setEntry_text, setEntry_text, entries?_renumbered, assignEntry_renumbered]
    split
    · rfl
    · split
      · rfl
      · split
        · cases value.entries? with
          | none => rfl
          | some entries => exact congrArg Except.ok (replacePart_renumbered s part entries)
        · rfl
  | _ => rfl

/-- The settings that come of some work, or its failure, with all values under other marks. -/
def renumberedOutcome (ρ : Renumbering) (x : Except Failure Settings) : Except Failure Settings :=
  (x.map (renumbered ρ)).mapError (Failure.renumbered ρ)

theorem renumberedOutcome_refl (x : Except Failure Settings) : renumberedOutcome (.refl _) x = x := by
  cases x with
  | error failure => exact congrArg Except.error failure.renumbered_refl
  | ok s => exact congrArg Except.ok s.renumbered_refl

theorem bind_renumberedOutcome {x x' : Except Failure Settings} {f f' : Settings → Except Failure Settings}
    (first : x' = renumberedOutcome ρ x) (next : ∀ s : Settings, f' (s.renumbered ρ) = renumberedOutcome ρ (f s)) :
    x' >>= f' = renumberedOutcome ρ (x >>= f) := by
  subst first
  cases x with
  | error failure => rfl
  | ok s => exact next s

theorem foldlM_renumberedOutcome {α : Type} {f f' : Settings → α → Except Failure Settings}
    (next : ∀ s a, f' (renumbered ρ s) a = renumberedOutcome ρ (f s a)) (l : List α) (s : Settings) :
    l.foldlM f' (s.renumbered ρ) = renumberedOutcome ρ (l.foldlM f s) := by
  induction l generalizing s with
  | nil => rfl
  | cons a rest ih =>
    rw [List.foldlM_cons, List.foldlM_cons]
    exact bind_renumberedOutcome (next s a) ih

theorem setEntries_renumbered (part : Part) (entries : List (Data × Data)) (s : Settings) :
    (renumberedEntries ρ entries).foldlM (setEntry part) (s.renumbered ρ) =
      (entries.foldlM (setEntry part) s).map (renumbered ρ) := by
  rw [renumberedEntries_eq_map, List.foldlM_map]
  induction entries generalizing s with
  | nil => rfl
  | cons entry rest ih =>
    rw [List.foldlM_cons, List.foldlM_cons, setEntry_renumbered]
    cases setEntry part s entry with
    | error b => rfl
    | ok s' => exact ih s'

theorem setPart_renumbered (entries : List (Data × Data)) (s : Settings) (part : Part) :
    setPart (renumberedEntries ρ entries) (s.renumbered ρ) part = renumberedOutcome ρ (setPart entries s part) := by
  have found : ((field? (partName part) entries).map (Data.renumbered ρ)).getD .null =
      ((field? (partName part) entries).getD .null).renumbered ρ := Option.getD_map (Data.renumbered ρ) .null _
  simp only [setPart, field?_renumbered, found, isTruthy_renumbered, entries?_renumbered]
  split
  · rfl
  · cases ((field? (partName part) entries).getD .null).entries? with
    | none => exact (Failure.mapError_settings (.sectionNotMapping (partName part))).symm
    | some settings =>
      simp only [Option.map_some, setEntries_renumbered]
      cases settings.foldlM (setEntry part) s <;> rfl

/-- From entries under other marks the same is taken over, under those marks. -/
theorem withEntries_renumbered (s : Settings) (entries : List (Data × Data)) :
    (s.renumbered ρ).withEntries (renumberedEntries ρ entries) = renumberedOutcome ρ (s.withEntries entries) := by
  have name : ((field? "app_name" entries).map (Data.renumbered ρ)).getD (s.renumbered ρ).appName =
      ((field? "app_name" entries).getD s.appName).renumbered ρ := Option.getD_map (Data.renumbered ρ) s.appName _
  have taken (start : Settings) : parts.foldlM (setPart (renumberedEntries ρ entries)) (start.renumbered ρ) =
      renumberedOutcome ρ (parts.foldlM (setPart entries) start) :=
    foldlM_renumberedOutcome (fun s part => setPart_renumbered entries s part) parts start
  simp only [withEntries, field?_renumbered, name]
  cases field? "version" entries with
  | none => exact taken { s with appName := (field? "app_name" entries).getD s.appName }
  | some version =>
    simp only [Option.map_some, plain?_renumbered]
    cases version.plain? with
    | none => rfl
    | some text => exact taken { s with appName := (field? "app_name" entries).getD s.appName, version := .text text }

theorem setVariable_renumbered (env : Environment) (s : Settings) (v : Variable) :
    setVariable env (s.renumbered ρ) v = renumberedOutcome ρ (setVariable env s v) := by
  rw [setVariable, setVariable]
  cases env.get? v.name with
  | none => rfl
  | some text =>
    have plain (value : Data) (read : v.reading.value? text = some value) : value.renumbered ρ = value := by
      cases reading : v.reading <;> rw [reading] at read
      · cases read
        rfl
      · obtain ⟨i, _, rfl⟩ := Option.map_eq_some_iff.mp read
        rfl
      · cases read
        rfl
    dsimp only
    cases read : v.reading.value? text with
    | none => exact (Failure.mapError_settings (.badVariable v.name text)).symm
    | some value =>
      refine congrArg Except.ok ?_
      rw [← set?_getD_renumbered, plain value read]

theorem withVariables_renumbered (s : Settings) (env : Environment) :
    (s.renumbered ρ).withVariables env = renumberedOutcome ρ (s.withVariables env) :=
  foldlM_renumberedOutcome (setVariable_renumbered env) knownVariables s

/-! What settings mean. -/

/-- The check comes to the same, or fails with the same problem under other marks. -/
theorem check_renumbered (env : Environment) (fs : Files) (s : Settings) :
    (s.renumbered ρ).check env fs = (s.check env fs).mapError (Failure.renumbered ρ) := by
  have blocked (part : Part) :
      (s.renumbered ρ).checkable part = (s.checkable part).mapError (Failure.renumbered ρ) := by
    rw [checkable, checkable]
    change (if part ∈ s.blocked then _ else _) = _
    split <;> rfl
  have engine : (s.renumbered ρ).engine.check.mapError Failure.settings =
      (s.engine.check.mapError .settings).mapError (Failure.renumbered ρ) := by
    change (s.engine.renumbered ρ).check.mapError _ = _
    rw [EngineSettings.check_renumbered]
    cases s.engine.check with
    | error p => exact (Failure.mapError_settings p).symm
    | ok options => rfl
  have script : (s.renumbered ρ).script.check env fs = (s.script.check env fs).mapError (Failure.renumbered ρ) :=
    ScriptSettings.check_renumbered env fs s.script
  have logging : (s.renumbered ρ).logging.check = s.logging.check.mapError (Failure.renumbered ρ) :=
    LogSettings.check_renumbered s.logging
  simp only [check, mapError_bind, blocked, engine, script, logging]
  rfl

/-- Settings that pass the check. -/
def checked (env : Environment) (fs : Files) (s : Settings) : Except Failure Settings := do
  let _ ← s.check env fs
  return s

theorem checked_renumbered (env : Environment) (fs : Files) (s : Settings) :
    checked env fs (s.renumbered ρ) = renumberedOutcome ρ (checked env fs s) := by
  rw [checked, checked, check_renumbered]
  cases s.check env fs <;> rfl

theorem withCall_renumbered (s : Settings) (call : Invocation) :
    (s.renumbered ρ).withCall { call with seed := call.seed.map (Data.renumbered ρ) } =
      (s.withCall call).renumbered ρ := by
  rw [withCall, withCall]
  dsimp only
  cases call.script.filter (· ≠ "") <;> cases call.seed <;> cases call.debug <;> rfl

theorem destinations_renumbered (s : Settings) :
    (s.renumbered ρ).logRequest.destinations = s.logRequest.destinations := by
  obtain ⟨_, _, _, _, ⟨level, json, folder⟩, _, _, _⟩ := s
  simp only [logRequest, renumbered, LogSettings.renumbered, Log.Request.destinations, isTruthy_renumbered]
  cases level <;> cases folder <;> rfl

/-! Settings as they are saved. -/

/-- Nothing in a part that is written has a mark, so that other marks make no difference to it. -/
theorem partData_renumbered (s : Settings) (part : Part) :
    (s.renumbered ρ).partData part = (s.partData part).map (Data.renumbered ρ) := by
  have unfolded (value : Data) :
      partData.unfolded (value.renumbered ρ) = (partData.unfolded value).map (Data.renumbered ρ) := by
    rw [partData.unfolded, partData.unfolded, isEndless_renumbered, unmarked_renumbered]
    split
    · rfl
    · exact congrArg Except.ok (renumbered_unmarked value).symm
  have listing : (s.renumbered ρ).listings = s.listings := rfl
  unfold partData
  rw [listing]
  cases (s.listings.lookup part).getD .all with
  | refused why => rfl
  | none => rfl
  | all =>
    cases part with
    | engine => exact unfolded s.engine.toData
    | script => exact unfolded s.script.toData
    | logging => exact unfolded s.logging.toData

theorem toData_renumbered (s : Settings) : (s.renumbered ρ).toData = s.toData.map (renumberedEntries ρ) := by
  have part (part : Part) : (do return (.text (partName part), ← (s.renumbered ρ).partData part)) =
      (do return (.text (partName part), ← s.partData part) : Except Breakdown (Data × Data)).map
        (Prod.map (Data.renumbered ρ) (Data.renumbered ρ)) := by
    rw [partData_renumbered]
    cases s.partData part <;> rfl
  simp only [toData, part, mapM_map]
  generalize (parts.mapM fun part => (do return (.text (partName part), ← s.partData part) :
    Except Breakdown (Data × Data))) = listed
  cases listed with
  | error b => rfl
  | ok entries =>
    refine congrArg Except.ok ?_
    rw [renumberedEntries_eq_map, List.map_append]
    rfl

/-- Marks are not written themselves: the text tells only which values stand in several places. -/
theorem text_renumbered (s : Settings) : (s.renumbered ρ).text = s.text := by
  rw [text, text, toData_renumbered]
  cases s.toData with
  | error b => rfl
  | ok entries =>
    simp only [Except.map, ok_bind, Yaml.write?_renumbered]

theorem save_renumbered (env : Environment) (fs : Files) (s : Settings) (given : Option String) :
    (s.renumbered ρ).save env fs given = s.save env fs given := by
  have place : (s.renumbered ρ).savePath env given = s.savePath env given := by
    obtain ⟨_, _, _, _, _, folder, _, _⟩ := s
    simp only [savePath, renumbered, isTruthy_renumbered]
    cases folder <;> rfl
  rw [save, save, place, text_renumbered]

/-! Settings that have passed the check, as a conversation uses them. -/

variable {env : Environment} {fs : Files} {s : Settings} {meaning : Meaning}

theorem start_renumbered (passed : s.check env fs = .ok meaning) (rules : RuleSet) (source : RandomSource.Offer) :
    Engine.start rules source (s.renumbered ρ).engine = Engine.start rules source s.engine := by
  obtain ⟨_, _, passed⟩ := bind_eq_ok.mp passed
  obtain ⟨options, found, _⟩ := bind_eq_ok.mp passed
  have found' : (s.renumbered ρ).engine.check = .ok options := by
    change (s.engine.renumbered ρ).check = _
    rw [EngineSettings.check_renumbered, mapError_eq_ok.mp found]
    rfl
  rw [Engine.start, Engine.start, found', mapError_eq_ok.mp found]

theorem seed_renumbered (passed : s.check env fs = .ok meaning) :
    (s.renumbered ρ).script.seed = s.script.seed := by
  obtain ⟨_, _, passed⟩ := bind_eq_ok.mp passed
  obtain ⟨_, _, passed⟩ := bind_eq_ok.mp passed
  obtain ⟨_, _, passed⟩ := bind_eq_ok.mp passed
  obtain ⟨options, found, _⟩ := bind_eq_ok.mp passed
  rw [ScriptSettings.check_eq] at found
  obtain ⟨path, _, seeded⟩ := bind_eq_ok.mp found
  obtain ⟨_, _, _, ⟨_, seed⟩, _, _, _, _⟩ := s
  cases seed with
  | null | int _ => rfl
  | _ => contradiction

end Settings
end Colloquy
