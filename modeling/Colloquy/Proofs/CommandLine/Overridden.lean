import Colloquy.Proofs.CommandLine.Beside
import Colloquy.Proofs.CommandLine.Invocation
import Colloquy.Proofs.Script.Renumbered
import Colloquy.Proofs.Settings.Overridden

/-! Options of the command line that go over settings of the file. Two runs with such an option do the same,
whatever their files give for it, as long as the files are accepted alike before the option counts. -/

namespace Colloquy

open Data (Renumbering renumberedEntries)
open Settings (CallSetting)

variable {c : CallSetting} {ρ : Renumbering} {env : Environment} {fs fs' : Files} {call : Invocation}

/-! Scripts. -/

namespace Script

/-- Nothing of what a file gives for the settings of the script is part of a script. -/
theorem ofData_congr {value value' : Data} {entries entries' : List (Data × Data)}
    (map : value.entries? = some entries) (map' : value'.entries? = some entries')
    (same : ∀ name, name ≠ "script" → Data.field? name entries' = Data.field? name entries) :
    ofData value' = ofData value := by
  simp only [ofData, map, map', same "keywords" (by decide), same "synonyms" (by decide),
    same "pres" (by decide), same "posts" (by decide), same "post_transforms" (by decide),
    same "quits" (by decide), same "initials" (by decide), same "finals" (by decide)]

theorem exists_readData {text : String} {entries : List (Data × Data)} {p : Path}
    (found : fs.find? p = some (.text text)) (maps : CallSetting.Maps text entries) :
    ∃ value, readData fs p = .ok value ∧ value.entries? = some entries := by
  obtain ⟨value, read, map⟩ := maps
  have spelt : fs.read p = .ok (Files.lineEnds text.toList) := by rw [Files.read, found]
  refine ⟨if value.isTruthy then value else .map [], ?_, ?_⟩
  · rw [readData, spelt]
    dsimp only
    rw [read]
  · cases truthy : value.isTruthy with
    | true => exact map
    | false =>
      rw [Data.entries_eq_nil truthy map]
      rfl

theorem ends_ofData (like : fs.Like (c.SameOrVaries ρ) fs') (p : Path) :
    Ends Eq (readData fs p >>= ofData) (readData fs' p >>= ofData) := by
  have same (alike : fs'.read p = fs.read p) : Ends Eq (readData fs p >>= ofData) (readData fs' p >>= ofData) := by
    rw [readData, readData, alike]
    exact .refl _
  obtain ⟨old, new⟩ | ⟨e, e', old, new, fits⟩ := like.found p
  · exact same (by rw [Files.read, Files.read, old, new])
  · cases fits with
    | directory => exact same (by rw [Files.read, Files.read, old, new])
    | bytes => exact same (by rw [Files.read, Files.read, old, new])
    | text fits =>
      rcases fits with rfl | ⟨entries, entries', maps, maps', differ⟩
      · exact same (by rw [Files.read, Files.read, old, new])
      · obtain ⟨value, read, map⟩ := exists_readData old maps
        obtain ⟨value', read', map'⟩ := exists_readData new maps'
        have marked : (value.renumbered ρ).entries? = some (renumberedEntries ρ entries) := by
          rw [Data.entries?_renumbered, map, Option.map_some]
        rw [read, read', ok_bind, ok_bind, ofData_congr marked map' differ.others, ofData_renumbered]
        exact .of_matched (Matched.eq _)

theorem ends_readFile (like : fs.Like (c.SameOrVaries ρ) fs') (path : String) :
    Ends Eq (readFile env fs path) (readFile env fs' path) := by
  have script (p : Path) : Ends Eq (do return (p, ← ofData (← readData fs p)) : Except Failure (Path × Script))
      (do return (p, ← ofData (← readData fs' p))) := by
    rw [← bind_assoc, ← bind_assoc]
    refine (ends_ofData like p).bind fun s s' same => ?_
    cases same
    exact .refl _
  rw [readFile, readFile]
  refine Ends.bind_same _ fun p => ?_
  rw [like.samePlaces.hasFile]
  refine Ends.bind_same _ fun there => ?_
  cases there with
  | true => exact script p
  | false => exact .refl _

theorem load_like (env : Environment) (like : fs.Like (c.SameOrVaries ρ) fs') (given : Option String) :
    (load env fs' given).records = (load env fs given).records ∧
      Ends Eq (load env fs given).outcome (load env fs' given).outcome := by
  rw [load, load]
  split
  · exact ⟨rfl, .refl _⟩
  · next path _ =>
    have read : Ends Eq (readFile env fs path) (readFile env fs' path) := ends_readFile like path
    generalize readFile env fs path = x at read ⊢
    generalize readFile env fs' path = y at read ⊢
    cases read with
    | failed told => exact ⟨rfl, .failed told⟩
    | done same =>
      cases same
      exact ⟨rfl, .refl _⟩

end Script

/-! Steps of a run. -/

theorem Settings.matched_save {related : String → String → Prop} (like : fs.Like related fs')
    (each : ∀ text, related text text) (env : Environment) (s : Settings) (given : Option String) :
    Matched (fun x y => x.1 = y.1 ∧ x.2.1 = y.2.1) (s.save env fs given) (s.save env fs' given) := by
  have changed (p : Path) (text : String) :
      Matched (Files.Like related) (fs.applyAll (changes p text)) (fs'.applyAll (changes p text)) :=
    like.applyAll each (by simp [changes, Change.Keeps])
  rw [save, save]
  refine Matched.bind_same _ fun p => ?_
  have opened := changed p ""
  generalize fs.applyAll (changes p "") = x at opened ⊢
  generalize fs'.applyAll (changes p "") = y at opened ⊢
  cases opened with
  | failed b => cases b <;> exact .failed _
  | done _ =>
    refine Matched.bind_same _ fun text => ?_
    exact ((changed p text).mapError _).bind fun _ _ _ => .done ⟨rfl, rfl⟩

namespace Sitting

open Act

theorem blind_writeSettings (settings : Settings) (path : String) :
    Blind (c.SameOrVaries ρ) (c.SameOrVaries ρ) (writeSettings env settings path) := by
  refine Alike.read fun s s' beside => ?_
  cases beside with
  | @among files like =>
    have saved := Settings.matched_save like CallSetting.SameOrVaries.refl env settings (some path)
    dsimp only
    generalize settings.save env s.files (some path) = x at saved ⊢
    generalize settings.save env files (some path) = y at saved ⊢
    cases saved with
    | failed e => exact Blind.fails e
    | @done old new same =>
      obtain ⟨p, text, _⟩ := old
      obtain ⟨p', text', _⟩ := new
      obtain ⟨rfl, rfl⟩ := same
      refine (Blind.change CallSetting.SameOrVaries.refl ?_).andThen fun _ => Blind.printLine _
      simp [Settings.changes, Change.Keeps]

theorem blind_openConversation (settings : Settings) (meaning : Settings.Meaning) (chance : Chance) :
    Blind (c.SameOrVaries ρ) anyTexts (openConversation env settings meaning chance) := by
  refine Alike.read fun s s' beside => ?_
  cases beside with
  | among like =>
    obtain ⟨records, ends⟩ := Script.load_like env like meaning.script.path
    refine Alike.weaken ?_ fun _ _ _ => trivial
    refine (Alike.perform records ends).andThen fun script => (Blind.perform _).andThen fun rules => ?_
    refine (Blind.ofExcept _).andThen fun started => (Blind.nameSession _).andThen fun _ => ?_
    exact (Blind.note _).andThen fun _ => Blind.done _

/-! Settings that differ in marks. Once they have passed the check, they are not told apart any more. -/

theorem setUpLog_renumbered (settings : Settings) :
    Act.setUpLog (settings.renumbered ρ).logRequest = Act.setUpLog settings.logRequest := by
  simp only [Act.setUpLog, Log.Journal.setUp, Settings.destinations_renumbered]

theorem writeSettings_renumbered (settings : Settings) (path : String) :
    writeSettings env (settings.renumbered ρ) path = writeSettings env settings path := by
  simp only [writeSettings, Settings.save_renumbered]

theorem openConversation_renumbered {settings : Settings} {meaning : Settings.Meaning}
    (checked : settings.check env fs = .ok meaning) (chance : Chance) :
    openConversation env (settings.renumbered ρ) meaning chance = openConversation env settings meaning chance := by
  have starts (rules : RuleSet) (source : RandomSource.Offer) :
      Engine.start rules source (settings.renumbered ρ).engine = Engine.start rules source settings.engine :=
    Settings.start_renumbered checked rules source
  simp only [openConversation, starts, Settings.seed_renumbered checked]

theorem settingsFor_on (s : Sitting) : (settingsFor env call).on s = ((do
    let settings ← Settings.load env s.files call.config true
    let meaning ← (settings.withCall call).check env s.files
    return (settings.withCall call, meaning)), s) := by
  simp only [settingsFor, on_bind, on_get, on_ofExcept]
  cases Settings.load env s.files call.config true with
  | error e => rfl
  | ok settings =>
    simp only [ok_bind]
    cases (settings.withCall call).check env s.files <;> rfl

/-- Whether settings with their meaning are the same as others, but for the marks of values. -/
inductive SameMeaning (env : Environment) (fs : Files) (ρ : Renumbering) :
    Settings × Settings.Meaning → Settings × Settings.Meaning → Prop
  | under {settings : Settings} {meaning : Settings.Meaning} (checked : settings.check env fs = .ok meaning) :
    SameMeaning env fs ρ (settings, meaning) (settings.renumbered ρ, meaning)

/-- The settings that count for a call are the same but for marks if those of the files are loaded alike. -/
theorem alikeAt_settingsFor (gives : c.GivenBy call) (unmarked : call.Unmarked) {s s' : Sitting}
    (beside : s.Beside (c.SameOrVaries ρ) s')
    (verdict : CallSetting.SameVerdict ρ (Settings.load env s.files call.config true)
      (Settings.load env s'.files call.config true)) :
    AlikeAt (fun x y => ∃ σ, SameMeaning env s.files σ x y) (c.SameOrVaries ρ) (settingsFor env call)
      (settingsFor env call) s s' := by
  cases beside with
  | @among files like =>
    have checks (settings : Settings) : settings.check env files = settings.check env s.files := by
      simp only [Settings.check, ScriptSettings.check, like.samePlaces.hasFile]
    rw [AlikeAt, settingsFor_on, settingsFor_on]
    refine ⟨(CallSetting.ends_load like verdict).bind fun settings settings' same => ?_, .among like⟩
    obtain ⟨σ, agree⟩ := same
    rw [checks, ← agree.withCall gives, unmarked.withCall, Settings.check_renumbered]
    cases checked : (settings.withCall call).check env s.files with
    | error failure => exact .failed failure.notice_renumbered.symm
    | ok meaning => exact .done ⟨σ, .under checked⟩

theorem alikeAt_run (gives : c.GivenBy call) (unmarked : call.Unmarked) (chance : Chance)
    (inputs : List (Option String)) {s s' : Sitting} (beside : s.Beside (c.SameOrVaries ρ) s')
    (verdict : CallSetting.SameVerdict ρ (Settings.load env s.files call.config true)
      (Settings.load env s'.files call.config true)) :
    AlikeAt Eq anyTexts (run env call chance inputs) (run env call chance inputs) s s' := by
  have begins : AlikeAt Eq anyTexts (begin env call chance) (begin env call chance) s s' := by
    refine (alikeAt_settingsFor gives unmarked beside verdict).bind (fun chosen chosen' same => ?_) fun _ _ _ => trivial
    obtain ⟨σ, same⟩ := same
    cases same with
    | @under settings meaning checked =>
      dsimp only
      rw [setUpLog_renumbered]
      refine (Blind.setUpLog CallSetting.SameOrVaries.refl _).bind (fun _ => ?_) fun _ _ _ => trivial
      split
      · rw [writeSettings_renumbered]
        refine (blind_writeSettings settings _).bind (fun _ => ?_) fun _ _ _ => trivial
        exact (Blind.done _).weaken fun _ _ _ => trivial
      · rw [openConversation_renumbered checked]
        refine (blind_openConversation settings meaning chance).bind (fun opened => ?_) fun _ _ fits => fits
        obtain ⟨e, conversation⟩ := opened
        dsimp only
        split
        · refine (Blind.takeTurn _ _).andThen fun given => ?_
          exact (Blind.printLine _).andThen fun _ => (Blind.print _).andThen fun _ => Blind.done _
        · exact (blind_answerAll _).andThen fun _ => Blind.done _
  refine begins.bind (fun next next' same => ?_) fun _ _ fits => fits
  cases same
  cases next with
  | none => exact Blind.done _
  | some opened => exact blind_hearAll inputs

/-- A run concludes with what is told of its failure, if it has failed. -/
theorem conclude_error (failure : Failure) (s : Sitting) :
    conclude (.error failure) s = failure.notice.map fun text => (1, s.print s!"\nError: {text}\n") := by
  cases failure with
  | breakdown b => rfl
  | reported p =>
    rw [conclude, Failure.notice]
    split <;> rfl

end Sitting

/-! Whole runs. -/

/-- What a run shows: its exit code if it has one, what it prints, what it writes to the terminal of
records, and how it changes files. -/
structure Conduct where
  exit : Except Breakdown Nat
  printed : String
  logged : String
  changes : List Change

def Invocation.shown (call : Invocation) (env : Environment) (chance : Sitting.Chance)
    (inputs : List (Option String)) (moment : Log.Moment) (fs : Files) : Conduct :=
  let (outcome, s) := (Sitting.run env call chance inputs).on (.start fs moment)
  match Sitting.conclude outcome s with
  | .ok (code, s) => ⟨.ok code, s.printed, s.logged, s.changes⟩
  | .error b => ⟨.error b, s.printed, s.logged, s.changes⟩

/-- What the program shows among some files if it is called with some words. -/
def conduct (words : List String) (env : Environment) (chance : Sitting.Chance) (inputs : List (Option String))
    (moment : Log.Moment) (fs : Files) : Except Refusal Conduct :=
  (Invocation.read words).map fun call => call.shown env chance inputs moment fs

theorem shown_like (gives : c.GivenBy call) (unmarked : call.Unmarked) {chance : Sitting.Chance}
    {inputs : List (Option String)} {moment : Log.Moment} (like : fs.Like (c.SameOrVaries ρ) fs')
    (verdict : CallSetting.SameVerdict ρ (Settings.load env fs call.config true)
      (Settings.load env fs' call.config true)) :
    call.shown env chance inputs moment fs' = call.shown env chance inputs moment fs := by
  have beside : (Sitting.start fs moment).Beside (c.SameOrVaries ρ) (.start fs' moment) :=
    .among (s := .start fs moment) like
  obtain ⟨ends, left⟩ := Sitting.alikeAt_run gives unmarked chance inputs beside verdict
  rw [Invocation.shown, Invocation.shown]
  generalize (Sitting.run env call chance inputs).on (.start fs moment) = x at ends left ⊢
  generalize (Sitting.run env call chance inputs).on (.start fs' moment) = y at ends left ⊢
  obtain ⟨outcome, s⟩ := x
  obtain ⟨outcome', s'⟩ := y
  cases left with
  | among like =>
    cases ends with
    | done same => rfl
    | @failed failure failure' told =>
      simp only [Sitting.conclude_error, told]
      cases failure'.notice <;> rfl

theorem Settings.CallSetting.Varies.like {text text' : String} (varies : c.Varies ρ text text') (fs : Files)
    (place : Path) : (fs.put place (.text text)).Like (c.SameOrVaries ρ) (fs.put place (.text text')) :=
  (Files.Like.refl CallSetting.SameOrVaries.refl fs).put (.text (.inr varies)) place

/-- Whether a setting is in order before a call is looked at: the variable for it is set, or what is gathered
for it passes its own check. -/
def Settings.CallSetting.InOrder (c : CallSetting) (env : Environment) (fs : Files) (given : Option String) : Prop :=
  env.get? c.variableName ≠ none ∨ ∀ s, gather env fs given true = .ok s → c.Sound env fs s

/-- A call that gives a setting of its own shows the same whichever of two texts stands at a place that are
maps alike but for that setting and the marks of values, if the settings are loaded from both before the call
counts, or fail alike to be. That is so if the setting is in order with both. -/
theorem conduct_overridden (words : List String) (env : Environment) (chance : Sitting.Chance)
    (inputs : List (Option String)) (moment : Log.Moment) (fs : Files) (place : Path) (text text' : String)
    (valid : Invocation.read words = .ok call) (gives : c.GivenBy call) (varies : c.Varies ρ text text') :
    (CallSetting.SameVerdict ρ (Settings.load env (fs.put place (.text text)) call.config true)
        (Settings.load env (fs.put place (.text text')) call.config true) →
      conduct words env chance inputs moment (fs.put place (.text text')) =
        conduct words env chance inputs moment (fs.put place (.text text))) ∧
    (c.InOrder env (fs.put place (.text text)) call.config →
      c.InOrder env (fs.put place (.text text')) call.config →
      CallSetting.SameVerdict ρ (Settings.load env (fs.put place (.text text)) call.config true)
        (Settings.load env (fs.put place (.text text')) call.config true)) := by
  have like := varies.like fs place
  constructor
  · intro verdict
    rw [conduct, conduct, valid]
    exact congrArg Except.ok (shown_like gives (Invocation.unmarked_of_read valid) like verdict)
  · rintro (set | sound) inOrder
    · exact CallSetting.sameVerdict_of_variable like set
    · rcases inOrder with set | sound'
      · exact CallSetting.sameVerdict_of_variable like set
      · exact CallSetting.sameVerdict_of_sound like sound sound'

namespace Settings.CallSetting

def only (c : CallSetting) (value : Data) : List (Data × Data) :=
  [(.text (partName .script), .map [(.text c.name, value)])]

theorem differ_only (c : CallSetting) (value value' : Data) : c.Differ (c.only value) (c.only value') := by
  have made (value : Data) : c.only value =
      Data.insert (.text (partName .script)) (.map [(.text c.name, value)]) [] := rfl
  have parted (value : Data) : Parted (c.only value) := by
    intro block found _
    rw [made, Data.field?_insert_self] at found
    cases found
    exact ⟨_, rfl⟩
  have nothing (value : Data) : c.rest (c.only value) = [] := by
    have key : c.isKey (.text c.name) = true := beq_self_eq_true _
    rw [rest, entriesIn, made, Data.field?_insert_self]
    exact List.filter_eq_nil_iff.mpr fun entry member => by simp [List.mem_singleton.mp member, key]
  refine ⟨fun name apart => ?_, .inr ⟨parted value, parted value', ?_⟩⟩
  · rw [made, made, Data.field?_insert_of_ne apart, Data.field?_insert_of_ne apart]
  · rw [nothing, nothing]

theorem varies_only (c : CallSetting) (value value' : Data) {text text' : String} (maps : Maps text (c.only value))
    (maps' : Maps text' (c.only value')) : c.Varies (.refl _) text text' := by
  refine ⟨c.only value, c.only value', maps, maps', ?_⟩
  rw [Data.renumberedEntries_refl]
  exact c.differ_only value value'

theorem maps_of_isSame {text : String} {entries : List (Data × Data)}
    (read : ((Yaml.read (Files.lineEnds text.toList)).toOption.any fun value => value.isSame (.map entries)) = true) :
    Maps text entries := by
  obtain ⟨value, read, same⟩ := exists_of_any read
  rw [Data.eq_of_isSame same] at read
  exact ⟨_, read, rfl⟩

theorem inOrder_of_number {given : Option String} (number : ((gather env fs given true).toOption.any fun s =>
    match s.script.seed with
    | .int _ => true
    | _ => false) = true) : CallSetting.seed.InOrder env fs given := by
  refine .inr fun s gathered => .inr ?_
  obtain ⟨s', gathered', number⟩ := exists_of_any number
  cases gathered.symm.trans gathered'
  split at number
  · next seed found => exact ⟨seed, found⟩
  · contradiction

end Settings.CallSetting

def seedGiven : List String := ["--config", "c.yaml", "--seed", "5", "--write-config", "out.yaml"]

/-- What a call with a seed shows with a text in the file of settings. -/
def shownWith (text : String) : Except Refusal Conduct :=
  conduct seedGiven Settings.homely ⟨.ofSeed 1, ""⟩ [] ⟨"", "", ""⟩ (Files.empty.put (.parse "c.yaml") (.text text))

theorem shownWith_eq (text : String) : shownWith text = conduct seedGiven Settings.homely ⟨.ofSeed 1, ""⟩ []
    ⟨"", "", ""⟩ (Files.empty.put (.parse "c.yaml") (.text text)) := rfl

theorem seedGiven_valid : ∃ call, Invocation.read seedGiven = .ok call ∧ CallSetting.seed.GivenBy call ∧
    call.config = some "c.yaml" := by
  have read : ((Invocation.read seedGiven).toOption.any fun call =>
      call.seed.isSome && call.config == some "c.yaml") = true := by decide +kernel
  obtain ⟨call, read, given⟩ := exists_of_any read
  rw [Bool.and_eq_true, beq_iff_eq] at given
  exact ⟨call, read, Option.isSome_iff_ne_none.mp given.1, given.2⟩

/-- A setting of the file is checked before the one of the call counts. -/
theorem seed_checked_first : ¬ ∀ (c : CallSetting) (words : List String) (env : Environment) (call : Invocation)
    (chance : Sitting.Chance) (inputs : List (Option String)) (moment : Log.Moment) (fs : Files) (place : Path)
    (text text' : String), Invocation.read words = .ok call → c.GivenBy call → c.Varies (.refl _) text text' →
      conduct words env chance inputs moment (fs.put place (.text text')) =
        conduct words env chance inputs moment (fs.put place (.text text)) := by
  intro alike
  have varies : CallSetting.seed.Varies (.refl _) "script:\n  seed: 1\n" "script:\n  seed: abc\n" :=
    CallSetting.seed.varies_only (.int 1) (.text "abc") (CallSetting.maps_of_isSame (by decide +kernel))
      (CallSetting.maps_of_isSame (by decide +kernel))
  obtain ⟨call, read, given, _⟩ := seedGiven_valid
  have same := alike .seed seedGiven Settings.homely call ⟨.ofSeed 1, ""⟩ [] ⟨"", "", ""⟩ .empty (.parse "c.yaml") _ _
    read given varies
  rw [← shownWith_eq, ← shownWith_eq] at same
  have accepted : (shownWith "script:\n  seed: 1\n").toOption.map Conduct.exit = some (.ok 0) := by decide +kernel
  have refused : (shownWith "script:\n  seed: abc\n").toOption.map Conduct.exit = some (.ok 1) := by decide +kernel
  rw [same, accepted] at refused
  exact absurd refused (by decide)

/-- Two seeds in the file make no difference to a call that gives one. -/
theorem seeds_overridden : shownWith "script:\n  seed: 2\n" = shownWith "script:\n  seed: 1\n" := by
  have varies : CallSetting.seed.Varies (.refl _) "script:\n  seed: 1\n" "script:\n  seed: 2\n" :=
    CallSetting.seed.varies_only (.int 1) (.int 2) (CallSetting.maps_of_isSame (by decide +kernel))
      (CallSetting.maps_of_isSame (by decide +kernel))
  obtain ⟨call, read, given, named⟩ := seedGiven_valid
  obtain ⟨same, verdict⟩ := conduct_overridden seedGiven Settings.homely ⟨.ofSeed 1, ""⟩ [] ⟨"", "", ""⟩ .empty
    (.parse "c.yaml") _ _ read given varies
  rw [← shownWith_eq, ← shownWith_eq, named] at same
  rw [named] at verdict
  exact same (verdict (CallSetting.inOrder_of_number (by decide +kernel))
    (CallSetting.inOrder_of_number (by decide +kernel)))

end Colloquy
