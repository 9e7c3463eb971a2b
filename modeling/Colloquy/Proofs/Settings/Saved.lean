import Colloquy.Proofs.Path
import Colloquy.Proofs.Settings.Layers

/-! Settings that are saved and loaded again: they are written as before. -/

namespace Colloquy

namespace Settings

/-- Settings of the kinds that are meant for them. -/
structure Typed where
  appName : String
  version : String
  capitalize : Bool
  capacity : Int
  hopLimit : Int
  debug : Bool
  path : String
  seed : Option Int
  level : String
  json : Bool
  logFolder : String

namespace Typed

def settings (t : Typed) (folder : Data) : Settings where
  appName := .text t.appName
  version := .text t.version
  engine := ⟨.bool t.capitalize, .int t.capacity, .int t.hopLimit, .bool t.debug⟩
  script := ⟨.text t.path, t.seed.elim .null .int⟩
  logging := ⟨.text t.level, .bool t.json, .text t.logFolder⟩
  folder
  blocked := []
  listings := []

def entries (t : Typed) : List (Data × Data) := [
  (.text "app_name", .text t.appName),
  (.text "version", .text t.version),
  (.text "engine", (t.settings .null).engine.toData),
  (.text "script", (t.settings .null).script.toData),
  (.text "logging", (t.settings .null).logging.toData)]

variable (t : Typed) (folder : Data)

/-- Typed settings are written as their entries. -/
theorem toData_settings : (t.settings folder).toData = .ok t.entries := by
  obtain ⟨_, _, _, _, _, _, _, seed, _, _, _⟩ := t
  cases seed <;> rfl

/-- The entries of typed settings, taken over, give those settings again. -/
theorem withEntries_entries (s : Settings) : s.withEntries t.entries =
    .ok { t.settings s.folder with blocked := s.blocked, listings := s.listings } := by
  rfl

end Typed

variable {env : Environment} {fs fs' opened : Files} {given : Option String} {p : Path} {s : Settings} {m : Meaning}
  {entries : List (Data × Data)} {text : List Char}

/-- Whether the entries of a file can be written, and reading what has been written gives them again. -/
def Legible (entries : List (Data × Data)) : Prop :=
  ∃ text, Yaml.write? entries = some text ∧ Yaml.read (Files.lineEnds text) = .ok (.map entries)

/-! What stands where, after settings have been saved. -/

theorem savePath_proper (settled : s.savePath env given = .ok p) : p.IsProper := by
  rw [savePath] at settled
  split at settled
  · rw [← Except.ok.inj settled]
    exact Path.parse_proper _
  · split at settled
    · cases usual : env.settingsFolder with
      | error b =>
        rw [usual] at settled
        contradiction
      | ok folder =>
        rw [usual] at settled
        rw [← Except.ok.inj settled]
        exact (env.settingsFolder_proper usual).child ⟨by decide, by decide, by decide⟩
    · split at settled
      · rw [← Except.ok.inj settled]
        exact (Path.parse_proper _).child ⟨by decide, by decide, by decide⟩
      · contradiction

theorem applyAll_changes {content : String} : fs.applyAll (changes p content) = .ok fs' ↔
    ∃ made place, fs.makeDirectory p.parent = .ok made ∧ made.target p = .ok place ∧
      fs' = made.put place (.text content) := by
  have steps : fs.applyAll (changes p content) = (do
      let made ← fs.makeDirectory p.parent
      made.write p content) := by
    simp only [Files.applyAll, changes, List.foldlM_cons, List.foldlM_nil, bind_pure]
    rfl
  rw [steps, bind_eq_ok]
  constructor
  · rintro ⟨made, directory, written⟩
    obtain ⟨place, target, rfl⟩ := Files.write_eq_ok.mp written
    exact ⟨made, place, directory, target, rfl⟩
  · rintro ⟨made, place, directory, target, rfl⟩
    exact ⟨made, directory, Files.write_eq_ok.mpr ⟨place, target, rfl⟩⟩

/-- A text that is saved is found at its path afterwards, and whatever stood somewhere still does. -/
theorem exists_changed (opens : fs.applyAll (changes p "") = .ok opened) (content : String) :
    ∃ fs', fs.applyAll (changes p content) = .ok fs' ∧ fs.Grown fs' ∧ fs'.has p = .ok true ∧
      fs'.read p = .ok (Files.lineEnds content.toList) := by
  obtain ⟨made, place, directory, target, _⟩ := applyAll_changes.mp opens
  obtain ⟨usable, leads, stands⟩ := Files.find?_put target (e := .text content) rfl
  refine ⟨_, applyAll_changes.mpr ⟨made, place, directory, target, rfl⟩, ?_, ?_, ?_⟩
  · exact (Files.makeDirectory_grown directory).trans (Files.put_grown target rfl)
  · simp only [Files.has, Files.look, usable, leads, stands]
    rfl
  · simp only [Files.read, Files.find?, leads, stands]

theorem located_grown {s : ScriptSettings} {path : Option String} (grown : fs.Grown fs')
    (found : s.located env fs = .ok path) : s.located env fs' = .ok path := by
  rw [ScriptSettings.located] at found ⊢
  obtain ⟨given, named, found⟩ := bind_eq_ok.mp found
  rw [named, ok_bind]
  cases given with
  | none => exact found
  | some name =>
    obtain ⟨p, expanded, found⟩ := bind_eq_ok.mp found
    obtain ⟨there, looked, found⟩ := bind_eq_ok.mp found
    cases there with
    | false => contradiction
    | true =>
      dsimp only
      rw [expanded, ok_bind, grown.hasFile (mapError_eq_ok.mp looked)]
      exact found

/-- Settings that pass the check still pass it when there are more files. -/
theorem check_grown (grown : fs.Grown fs') (checked : s.check env fs = .ok m) : s.check env fs' = .ok m := by
  rw [check] at checked ⊢
  obtain ⟨_, free, checked⟩ := bind_eq_ok.mp checked
  obtain ⟨engine, fits, checked⟩ := bind_eq_ok.mp checked
  obtain ⟨_, free', checked⟩ := bind_eq_ok.mp checked
  obtain ⟨script, found, checked⟩ := bind_eq_ok.mp checked
  rw [ScriptSettings.check_eq] at found
  obtain ⟨path, there, found⟩ := bind_eq_ok.mp found
  have found' : s.script.check env fs' = .ok script := by
    rw [ScriptSettings.check_eq, located_grown grown there]
    exact found
  rw [free, ok_bind, fits, ok_bind, free', ok_bind, found', ok_bind]
  exact checked

/-! Saving and loading. -/

/-- Settings that have a text are saved where they are to be, if the place can be opened for writing. -/
theorem exists_save (settled : s.savePath env given = .ok p) (opens : fs.applyAll (changes p "") = .ok opened)
    (listed : s.toData = .ok entries) (written : Yaml.write? entries = some text) :
    ∃ fs', s.save env fs given = .ok (p, String.ofList text, fs') ∧ fs.Grown fs' ∧ fs'.has p = .ok true ∧
      fs'.read p = .ok (Files.lineEnds text) := by
  obtain ⟨fs', changed, grown, there, read⟩ := exists_changed opens (String.ofList text)
  rw [String.toList_ofList] at read
  refine ⟨fs', ?_, grown, there, read⟩
  have spelt : s.text = .ok (String.ofList text) := by
    rw [Settings.text, listed, ok_bind, written]
    rfl
  rw [save, settled, ok_bind, opens]
  dsimp only
  rw [spelt]
  change (do
    let fs ← (fs.applyAll (changes p (String.ofList text))).mapError .breakdown
    return (p, String.ofList text, fs) : Except Failure _) = _
  rw [changed]
  rfl

/-- A file that reads back as some entries holds them as settings. -/
theorem fileHolds_of_read {folder : Path} (proper : p.IsProper) (there : fs.has p = .ok true)
    (read : fs.read p = .ok text) (reads : Yaml.read text = .ok (.map entries)) :
    FileHolds fs (some p.text) folder entries := by
  have back : Path.parse p.text = p := Path.parse_text proper
  refine ⟨some p, ?_, ?_⟩
  · have found := sourceOf_given (Path.text_ne_empty proper) (back.symm ▸ there) folder
    rwa [back] at found
  · change readEntries fs p = .ok entries
    rw [readEntries, read]
    dsimp only
    rw [reads]
    cases entries <;> rfl

/-- Settings of the kinds that are meant, put over any others as they are written, are written as before. So
are those that pass the check, are saved to a path that can be written, and are loaded from there. The others
may be any that are written with all of their parts. -/
theorem load_save (t : Typed) (folder : Data) : ∃ entries, (t.settings folder).toData = .ok entries ∧
    (∀ s : Settings, s.listings = [] → ∃ s', s.withEntries entries = .ok s' ∧ s'.toData = .ok entries) ∧
    ∀ env fs given usual p opened m, (t.settings folder).check env fs = .ok m →
      env.settingsFolder = .ok usual → (t.settings folder).savePath env given = .ok p →
      fs.applyAll (changes p "") = .ok opened → Legible entries →
        ∃ text fs' s', (t.settings folder).save env fs given = .ok (p, text, fs') ∧
          load env fs' (some p.text) false = .ok s' ∧ s'.toData = .ok entries := by
  refine ⟨t.entries, t.toData_settings folder, ?_, ?_⟩
  · intro s whole
    refine ⟨_, t.withEntries_entries s, ?_⟩
    rw [whole]
    exact t.toData_settings s.folder
  · intro env fs given usual p opened m checked found settled opens legible
    obtain ⟨text, written, reads⟩ := legible
    obtain ⟨fs', saved, grown, there, read⟩ :=
      exists_save settled opens (t.toData_settings folder) written
    refine ⟨_, fs', t.settings (.text usual.text), saved, ?_, t.toData_settings _⟩
    rw [load_of_holds found (fileHolds_of_read (savePath_proper settled) there read reads), loadEntries,
      t.withEntries_entries, ok_bind]
    have checked' : (t.settings (.text usual.text)).check env fs' = .ok m := check_grown grown checked
    change (do
      let _ ← (t.settings (.text usual.text)).check env fs'
      return t.settings (.text usual.text) : Except Failure Settings) = _
    rw [checked']
    rfl

def sparse : Typed where
  appName := ""
  version := "1.0"
  capitalize := false
  capacity := 0
  hopLimit := 1
  debug := false
  path := ""
  seed := some 0
  level := "debug"
  json := false
  logFolder := ""

theorem sparse_legible : Legible sparse.entries := by
  have back : (Yaml.write? sparse.entries).any (fun text =>
      (Yaml.read (Files.lineEnds text)).toOption.any fun value => value.isSame (.map sparse.entries)) = true := by
    decide +kernel
  obtain ⟨text, written, back⟩ := (Option.any_eq_true _ _).mp back
  obtain ⟨value, read, same⟩ := exists_of_any back
  rw [Data.eq_of_isSame same] at read
  exact ⟨text, written, read⟩

theorem sparse_saved : ∃ text fs' s',
    (sparse.settings .null).save homely .empty (some "conf/c.yaml") = .ok (.parse "conf/c.yaml", text, fs') ∧
      load homely fs' (some (Path.parse "conf/c.yaml").text) false = .ok s' ∧ s'.toData = .ok sparse.entries ∧
      ∃ s'', (default.withEntries sparse.entries) = .ok s'' ∧ s''.toData = .ok sparse.entries := by
  obtain ⟨entries, listed, put, loads⟩ := load_save sparse .null
  cases (sparse.toData_settings .null).symm.trans listed
  have opens : ((Files.empty.applyAll (changes (.parse "conf/c.yaml") "")).toOption.any fun _ => true) = true := by
    decide +kernel
  obtain ⟨opened, opens, _⟩ := exists_of_any opens
  have checked : (((sparse.settings .null).check homely .empty).toOption.any fun _ => true) = true := by
    decide +kernel
  obtain ⟨m, checked, _⟩ := exists_of_any checked
  have usual : homely.settingsFolder = .ok ⟨0, ["home", ".elizabot"]⟩ := by decide +kernel
  obtain ⟨text, fs', s', saved, loaded, alike⟩ :=
    loads homely .empty (some "conf/c.yaml") _ (.parse "conf/c.yaml") opened _ checked usual rfl opens sparse_legible
  exact ⟨text, fs', s', saved, loaded, alike, put default rfl⟩

end Settings
end Colloquy
