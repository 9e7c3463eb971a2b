import Colloquy.CommandLine.Run
import Colloquy.Proofs.Failure
import Colloquy.Proofs.Files.Like

/-! Two runs of the program side by side, among files that differ in what some of them hold. Steps that
do not look at what differs have the same outcome, and print, write and change the same. -/

namespace Colloquy

variable {α β : Type} {before between after : String → String → Prop}

/-- Whether two runs have done the same so far, among files that hold related texts. -/
inductive Sitting.Beside (related : String → String → Prop) (s : Sitting) : Sitting → Prop
  | among {files : Files} (like : s.files.Like related files) : Beside related s { s with files }

theorem Sitting.Beside.weaken {s s' : Sitting} (beside : s.Beside before s')
    (wide : ∀ old new, before old new → after old new) : s.Beside after s' := by
  cases beside with
  | among like => exact .among (like.weaken wide)

/-- Changes that keep related texts related leave two runs side by side. -/
theorem Sitting.Beside.change {s s' : Sitting} (beside : s.Beside after s') (each : ∀ text, after text text)
    {changes : List Change} (keeps : ∀ c ∈ changes, c.Keeps after) :
    (s.change changes).Beside after (s'.change changes) := by
  cases beside with
  | @among files like =>
    have changed := like.applyAll each keeps
    rw [Sitting.change, Sitting.change]
    generalize s.files.applyAll changes = old at changed ⊢
    generalize files.applyAll changes = new at changed ⊢
    cases changed with
    | failed b => exact .among (s := { s with changes := s.changes ++ changes }) like
    | @done files _ like => exact .among (s := { s with files, changes := s.changes ++ changes }) like

def anyTexts (_ _ : String) : Prop := True

theorem keeps_anyTexts (c : Change) : c.Keeps anyTexts := by
  cases c with
  | makeDirectory p => trivial
  | write p content => trivial
  | append p content => exact fun _ _ _ => trivial

theorem Sitting.Beside.note {s s' : Sitting} (beside : s.Beside anyTexts s') (r : Log.Record) :
    (s.note r).Beside anyTexts (s'.note r) := by
  have outputs : s'.journal.outputOf s'.moment r = s.journal.outputOf s.moment r := by
    cases beside
    rfl
  have changed := beside.change (fun _ => trivial) fun c (_ : c ∈ (s.journal.outputOf s.moment r).changes) =>
    keeps_anyTexts c
  rw [Sitting.note, Sitting.note, outputs]
  generalize s.change _ = t at changed ⊢
  generalize s'.change _ = t' at changed ⊢
  cases changed with
  | among like => exact .among (s := { t with logged := _ }) like

theorem Sitting.Beside.notes {s s' : Sitting} (beside : s.Beside anyTexts s') (records : List Log.Record) :
    (records.foldl Sitting.note s).Beside anyTexts (records.foldl Sitting.note s') := by
  induction records generalizing s s' with
  | nil => exact beside
  | cons r rest ih => exact ih (beside.note r)

namespace Act

def on (act : Act α) (s : Sitting) : Except Failure α × Sitting := StateT.run act.run s

/-- A step and then another one, carried out. After a failure of the first nothing more is done, and what
had been done stays. -/
theorem on_bind (act : Act α) (f : α → Act β) (s : Sitting) :
    (act >>= f).on s =
      match act.on s with
      | (.ok a, s') => (f a).on s'
      | (.error failure, s') => (.error failure, s') := by
  simp only [on, ExceptT.run, StateT.run, Bind.bind, ExceptT.bind, ExceptT.mk, StateT.bind]
  rcases act s with ⟨failed | a, s'⟩ <;> rfl

@[simp] theorem on_get (s : Sitting) : (get : Act Sitting).on s = (.ok s, s) := rfl

@[simp] theorem on_ofExcept (x : Except Failure α) (s : Sitting) : Act.on (ExceptT.mk (pure x)) s = (x, s) := rfl

/-- Whether two steps have related outcomes in two runs, or fail so that the same is told, and leave them side by
side. -/
def AlikeAt (related : α → β → Prop) (after : String → String → Prop) (act : Act α) (act' : Act β)
    (s s' : Sitting) : Prop :=
  Ends related (act.on s).1 (act'.on s').1 ∧ (act.on s).2.Beside after (act'.on s').2

/-- Whether two steps do the same in any runs side by side, and leave them so. -/
def Alike (before after : String → String → Prop) (act act' : Act α) : Prop :=
  ∀ s s', s.Beside before s' → AlikeAt Eq after act act' s s'

/-- Whether a step does the same in any runs side by side, and leaves them so. -/
abbrev Blind (before after : String → String → Prop) (act : Act α) : Prop := Alike before after act act

theorem AlikeAt.bind {γ : Type} {related : α → β → Prop} {act : Act α} {act' : Act β} {f : α → Act γ} {f' : β → Act γ}
    {s s' : Sitting} (first : AlikeAt related between act act' s s')
    (next : ∀ a b, related a b → Alike between after (f a) (f' b)) (wide : ∀ old new, between old new → after old new) :
    AlikeAt Eq after (act >>= f) (act' >>= f') s s' := by
  obtain ⟨ends, left⟩ := first
  rw [AlikeAt, on_bind, on_bind]
  generalize act.on s = x at ends left
  generalize act'.on s' = y at ends left
  obtain ⟨outcome, t⟩ := x
  obtain ⟨outcome', t'⟩ := y
  cases ends with
  | failed told => exact ⟨.failed told, left.weaken wide⟩
  | done fits => exact next _ _ fits t t' left

namespace Alike

variable {act act' : Act α} {f f' : α → Act β}

theorem bind (first : Alike before between act act') (next : ∀ a, Alike between after (f a) (f' a))
    (wide : ∀ old new, between old new → after old new) : Alike before after (act >>= f) (act' >>= f') := by
  refine fun s s' beside => (first s s' beside).bind (fun a b same => ?_) wide
  cases same
  exact next a

/-- A step in the course of which nothing is related less than before. -/
theorem andThen (first : Alike after after act act') (next : ∀ a, Alike after after (f a) (f' a)) :
    Alike after after (act >>= f) (act' >>= f') := first.bind next fun _ _ fits => fits

theorem weaken (alike : Alike between after act act') (wide : ∀ old new, before old new → between old new) :
    Alike before after act act' := fun s s' beside => alike s s' (beside.weaken wide)

/-- Steps that look at the run go on alike if they do so from any runs side by side. -/
theorem read {f f' : Sitting → Act α} (next : ∀ s s', s.Beside before s' → Alike before after (f s) (f' s')) :
    Alike before after (get >>= f) (get >>= f') := fun s s' beside => next s s' beside s s' beside

theorem ofOutcome {x y : Except Failure α} : Ends Eq x y → Alike after after
    (match x with
      | .ok a => (pure a : Act α)
      | .error e => throw e)
    (match y with
      | .ok a => (pure a : Act α)
      | .error e => throw e) := by
  intro ends
  cases ends with
  | failed told => exact fun _ _ beside => ⟨.failed told, beside⟩
  | done same =>
    cases same
    exact fun _ _ beside => ⟨.done rfl, beside⟩

end Alike

namespace Blind

theorem done (a : α) : Blind after after (pure a) := fun _ _ beside => ⟨.done rfl, beside⟩

theorem ofExcept (x : Except Failure α) : Blind after after (ExceptT.mk (pure x)) :=
  fun _ _ beside => ⟨.refl x, beside⟩

theorem fails (failure : Failure) : Blind after after (throw failure : Act α) :=
  fun _ _ beside => ⟨.failed rfl, beside⟩

theorem print (text : String) : Blind after after (Act.print text) := by
  intro s s' beside
  cases beside with
  | among like => exact ⟨.done rfl, .among (s := s.print text) like⟩

theorem nameSession (session : String) : Blind after after (Act.nameSession session) := by
  intro s s' beside
  cases beside with
  | among like =>
    exact ⟨.done rfl, .among (s := { s with journal := { s.journal with session } }) like⟩

theorem change (each : ∀ text, after text text) {changes : List Change} (keeps : ∀ c ∈ changes, c.Keeps after) :
    Blind after after (Act.change changes) := by
  refine Alike.read fun s s' beside => ?_
  have step : Blind after after (modify fun s => s.change changes : Act Unit) :=
    fun s s' beside => ⟨.done rfl, beside.change each keeps⟩
  cases beside with
  | @among files like =>
    have changed := like.applyAll each keeps
    dsimp only
    generalize s.files.applyAll changes = old at changed ⊢
    generalize files.applyAll changes = new at changed ⊢
    cases changed with
    | failed b => exact fails _
    | done _ => exact step

/-- What has to be done to set up where records go keeps texts as they are. -/
theorem keeps_setUp {j j' : Log.Journal} {request : Log.Request} {changes : List Change}
    (done : j.setUp request = .ok (j', changes)) : ∀ c ∈ changes, c.Keeps after := by
  have blank : ∀ p, (Change.append p "").Keeps after := fun p old new fits => by
    rwa [String.append_empty, String.append_empty]
  have all (folder : Path) : ∀ c ∈ Log.Journal.preparations folder, c.Keeps after := by
    simp only [Log.Journal.preparations, List.forall_mem_cons]
    exact ⟨trivial, blank _, blank _, nofun⟩
  rw [Log.Journal.setUp] at done
  split at done
  · cases done
    nofun
  · obtain ⟨d, _, made⟩ := bind_eq_ok.mp done
    cases made
    cases d.folder with
    | none => nofun
    | some folder => exact all folder

theorem setUpLog (each : ∀ text, after text text) (request : Log.Request) :
    Blind after after (Act.setUpLog request) := by
  refine Alike.read fun s s' beside => ?_
  cases beside with
  | among like =>
    dsimp only
    cases done : s.journal.setUp request with
    | ok made =>
      obtain ⟨journal, changes⟩ := made
      refine (change each (keeps_setUp done)).andThen fun _ s s' beside => ?_
      cases beside with
      | among like => exact ⟨.done rfl, .among (s := { s with journal }) like⟩
    | error b => exact fails _

theorem note (records : List Log.Record) : Blind anyTexts anyTexts (Act.note records) :=
  fun _ _ beside => ⟨.done rfl, beside.notes records⟩

theorem perform (x : Log.Noted α) : Blind anyTexts anyTexts (Act.perform x) :=
  (note x.records).andThen fun _ => .ofOutcome (.refl x.outcome)

/-- A step of a conversation looks at no files, so that it does the same in runs side by side. -/
theorem takeTurn (t : Turn α) (c : Conversation) : Blind anyTexts anyTexts (Act.takeTurn t c) := by
  refine (note _).andThen fun _ => ?_
  split
  · exact done _
  · exact fails _

theorem printLine (text : String) : Blind after after (Act.printLine text) := print _

end Blind

/-- Work that notes the same records, and is told to end alike, is performed alike. -/
theorem Alike.perform {x y : Log.Noted α} (records : y.records = x.records) (ends : Ends Eq x.outcome y.outcome) :
    Alike anyTexts anyTexts (Act.perform x) (Act.perform y) := by
  rw [Act.perform, Act.perform, records]
  exact (Blind.note x.records).andThen fun _ => .ofOutcome ends

end Act

/-! Conversations. -/

namespace Sitting

open Act

variable {e : Engine} {c : Conversation}

theorem blind_answer (input : String) : Blind anyTexts anyTexts (answer e c input) := by
  refine (Blind.takeTurn _ _).andThen fun given => ?_
  exact (Blind.printLine _).andThen fun _ => Blind.done _

theorem blind_answerAll (texts : List String) : Blind anyTexts anyTexts (answerAll e c texts) := by
  induction texts generalizing c with
  | nil => exact Blind.done _
  | cons text rest ih =>
    refine (Blind.printLine _).andThen fun _ => (blind_answer text).andThen fun given => ?_
    obtain ⟨isOver, c⟩ := given
    cases isOver with
    | true => exact Blind.done _
    | false => exact ih

theorem blind_hear (input : String) : Blind anyTexts anyTexts (hear e c input) := by
  refine (blind_answer input).andThen fun given => ?_
  obtain ⟨isOver, c⟩ := given
  cases isOver with
  | true => exact Blind.done _
  | false => exact (Blind.print _).andThen fun _ => Blind.done _

theorem blind_leave : Blind anyTexts anyTexts (leave e c) := by
  refine (Blind.takeTurn _ _).andThen fun given => ?_
  exact (Blind.printLine _).andThen fun _ => Blind.printLine _

/-- Whatever is heard, runs side by side go on side by side. -/
theorem blind_hearAll (inputs : List (Option String)) : Blind anyTexts anyTexts (hearAll e c inputs) := by
  induction inputs generalizing c with
  | nil => exact blind_leave
  | cons input rest ih =>
    cases input with
    | none => exact Blind.print _
    | some text =>
      refine (blind_hear text).andThen fun next => ?_
      cases next with
      | none => exact Blind.done _
      | some c => exact ih

end Sitting
end Colloquy
