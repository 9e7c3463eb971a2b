import Colloquy.Proofs.Conversation.Agenda

/-! Two conversations side by side. Nothing that is done in a conversation looks at its records, and
only the last touches to a reply look at the retouchings and the capital. Engines that differ in these,
and in whether choices are noted, therefore lead alike conversations on alike. -/

namespace Colloquy

variable {α β : Type}

/-- Whether two conversations differ in their records at most. -/
structure Conversation.Alike (c c' : Conversation) : Prop where
  source : c'.source = c.source
  session : c'.session = c.session

theorem Conversation.Alike.refl (c : Conversation) : c.Alike c := ⟨rfl, rfl⟩

namespace Turn

/-- Whether two steps lead alike conversations on alike, with related outcomes. -/
def Parallel (related : Except Failure α → Except Failure α → Prop) (t t' : Turn α) : Prop :=
  ∀ c c', c.Alike c' →
    (t.apply c).2.Alike (t'.apply c').2 ∧ related (t.apply c).1 (t'.apply c').1

/-- Whether two steps lead alike conversations on alike, with the same outcome. -/
abbrev Same (t t' : Turn α) : Prop := Parallel Eq t t'

variable {related : Except Failure α → Except Failure α → Prop} {t t' : Turn β} {f f' : β → Turn α}

/-- Two steps one after the other run in parallel if each of them does. -/
theorem Parallel.bind (fails : ∀ failure, related (.error failure) (.error failure))
    (first : Same t t') (next : ∀ b, Parallel related (f b) (f' b)) :
    Parallel related (t >>= f) (t' >>= f') := by
  intro c c' alike
  obtain ⟨after, outcome⟩ := first c c' alike
  rw [apply_bind, apply_bind]
  rcases run : t.apply c with ⟨failure | b, d⟩
  · rcases run' : t'.apply c' with ⟨failure' | b', d'⟩
    · rw [run, run'] at after outcome
      cases outcome
      exact ⟨after, fails failure⟩
    · rw [run, run'] at outcome
      contradiction
  · rcases run' : t'.apply c' with ⟨failure' | b', d'⟩
    · rw [run, run'] at outcome
      contradiction
    · rw [run, run'] at after outcome
      cases outcome
      exact next b d d' after

theorem Same.bind (first : Same t t') (next : ∀ b, Same (f b) (f' b)) : Same (t >>= f) (t' >>= f') :=
  Parallel.bind (fun _ => rfl) first next

theorem Same.weaken {t t' : Turn α} (same : Same t t') (refl : ∀ outcome, related outcome outcome) :
    Parallel related t t' := by
  intro c c' alike
  obtain ⟨after, outcome⟩ := same c c' alike
  exact ⟨after, outcome ▸ refl _⟩

/-- A step that looks at the conversation goes on alike if what it looks at is alike. -/
theorem Parallel.read {g g' : Conversation → Turn α}
    (next : ∀ c c', c.Alike c' → Parallel related (g c) (g' c')) :
    Parallel related (get >>= g) (get >>= g') := by
  intro c c' alike
  rw [apply_bind, apply_bind]
  exact next c c' alike c c' alike

theorem same_pure (b : β) : Same (pure b) (pure b) := fun _ _ alike => ⟨alike, rfl⟩

theorem same_breakDown (b : Breakdown) : Same (breakDown b : Turn β) (breakDown b) :=
  fun _ _ alike => ⟨alike, rfl⟩

theorem same_note {level level' : Log.Level} {message message' : String}
    {trace trace' : List (String × Log.TraceValue)} :
    Same (note level message trace) (note level' message' trace') :=
  fun _ _ alike => ⟨⟨alike.source, alike.session⟩, rfl⟩

theorem same_changeSession (change : Session → Session) :
    Same (changeSession change) (changeSession change) :=
  fun _ _ alike => ⟨⟨alike.source, congrArg change alike.session⟩, rfl⟩

theorem same_pick (count : Int) : Same (pick count) (pick count) := by
  intro c c' alike
  rw [Engine.pick_apply, Engine.pick_apply, alike.source]
  exact ⟨⟨rfl, alike.session⟩, rfl⟩

theorem same_pickText (texts : List String) : Same (pickText texts) (pickText texts) := by
  rw [pickText]
  split
  · exact same_pure _
  · refine (same_pick _).bind fun index => ?_
    split
    · exact same_pure _
    · exact same_breakDown _

theorem same_choose (slot : Slot) (count : Nat) : Same (choose slot count) (choose slot count) := by
  refine (same_pick _).bind fun candidate => Parallel.read fun c c' alike => ?_
  rw [alike.session]
  exact (same_changeSession _).bind fun _ => same_pure _

theorem same_remember (reply : String) : Same (remember reply) (remember reply) := by
  refine (same_changeSession _).bind fun _ => Parallel.read fun c c' alike => ?_
  rw [alike.session]
  dsimp only
  split
  · exact (same_breakDown _).bind fun _ => same_note
  · exact same_note

theorem same_fetchKept? : Same fetchKept? fetchKept? := by
  refine Parallel.read fun c c' alike => ?_
  rw [alike.session]
  dsimp only
  split
  · exact same_pure _
  · refine (same_pick _).bind fun index => ?_
    split
    · exact (same_changeSession _).bind fun _ => same_pure _
    · exact same_breakDown _

end Turn

namespace Engine

open Turn

/-- The engine with other looks: with other retouchings, with a capital at the start of replies or
not, and with choices noted or not. -/
def dressed (e : Engine) (retouches : List Retouch) (capitalize debug : Bool) : Engine :=
  { e with
    rules := { e.rules with retouches }
    options := { e.options with capitalize, debug } }

variable {e : Engine} {retouches : List Retouch} {capitalize debug : Bool} {r : Rules.Rule}
  {d : Rules.Decomposition} {index depth : Nat} {hops : Bool} {fragment : List Char}

/-! Rules do not depend on the looks. -/

theorem same_noteChoice (chosen : Reassembly) :
    Same (e.noteChoice r d chosen) ((e.dressed retouches capitalize debug).noteChoice r d chosen) := by
  have records (e : Engine) (c : Conversation) : c.Alike ((e.noteChoice r d chosen).apply c).2 ∧
      ((e.noteChoice r d chosen).apply c).1 = .ok () := by
    rw [noteChoice]
    split
    · exact ⟨⟨rfl, rfl⟩, rfl⟩
    · exact ⟨⟨rfl, rfl⟩, rfl⟩
  intro c c' alike
  obtain ⟨first, done⟩ := records e c
  obtain ⟨second, done'⟩ := records (e.dressed retouches capitalize debug) c'
  rw [done, done']
  refine ⟨⟨?_, ?_⟩, rfl⟩
  · rw [second.source, alike.source, first.source]
  · rw [second.session, alike.session, first.session]

theorem same_draw (p : Rules.Decomposition × Nat) :
    Same (e.draw r index p) ((e.dressed retouches capitalize debug).draw r index p) := by
  refine (same_choose _ _).bind fun choice => ?_
  split
  · exact same_breakDown _
  · exact (same_noteChoice _).bind fun _ => same_pure _

theorem same_assemble (m : Regex.Match) (template : String) :
    Same (e.assemble d m template)
      ((e.dressed retouches capitalize debug).assemble d m template) := by
  have echoes : (e.dressed retouches capitalize debug).echo = e.echo := rfl
  rw [assemble, assemble, echoes]
  split
  · exact same_pure _
  · exact same_breakDown _

theorem same_carryOut (m : Regex.Match) (chosen : Reassembly) :
    Same (e.carryOut r depth hops d m chosen)
      ((e.dressed retouches capitalize debug).carryOut r depth hops d m chosen) := by
  rcases chosen with template | ⟨target, _ | i⟩
  · refine (same_assemble m template).bind fun reply => ?_
    split
    · exact (same_remember reply).bind fun _ => same_pure _
    · exact same_pure _
  · exact same_note.bind fun _ => same_pure _
  · rw [carryOut, carryOut]
    split
    · exact same_pure _
    · exact same_note.bind fun _ => same_pure _

theorem same_attempt (p : Rules.Decomposition × Nat) :
    Same (e.attempt r index depth hops fragment p)
      ((e.dressed retouches capitalize debug).attempt r index depth hops fragment p) := by
  rw [attempt, attempt]
  split
  · exact same_pure _
  · exact (same_draw p).bind fun chosen => same_carryOut _ chosen

/-- Looks make no difference to the decompositions that are tried, if they make none to redirections. -/
theorem same_tryDecompositions {hop hop' : Option (Nat → Turn (Option String))}
    (follows : Option.Rel (fun follow follow' => ∀ i, Same (follow i) (follow' i)) hop hop')
    (ds : List (Rules.Decomposition × Nat)) :
    Same (e.tryDecompositions r index depth hop fragment ds)
      ((e.dressed retouches capitalize debug).tryDecompositions r index depth hop' fragment ds) := by
  have able : hop'.isSome = hop.isSome := by cases follows <;> rfl
  induction ds with
  | nil => exact same_pure _
  | cons p rest ih =>
    rw [tryDecompositions_cons, tryDecompositions_cons, able]
    refine (same_attempt p).bind fun upshot => ?_
    cases upshot with
    | nothing => exact ih
    | kept reply => exact ih
    | answered reply => exact same_pure _
    | redirected target =>
      cases follows with
      | none => exact same_pure _
      | some follows => exact follows target

theorem same_runRule (hops index : Nat) :
    Same (e.runRule fragment hops index)
      ((e.dressed retouches capitalize debug).runRule fragment hops index) := by
  have rules : (e.dressed retouches capitalize debug).rules.rules = e.rules.rules := rfl
  induction hops generalizing index with
  | zero =>
    rw [runRule, runRule, rules]
    cases e.rules.rules[index]? with
    | none => exact same_breakDown _
    | some r => exact same_tryDecompositions .none _
  | succ hops ih =>
    rw [runRule, runRule, rules]
    cases e.rules.rules[index]? with
    | none => exact same_breakDown _
    | some r => exact same_tryDecompositions (.some ih) _

theorem same_answerBy (fragment : List Char) (index : Nat) :
    Same (e.answerBy fragment index)
      ((e.dressed retouches capitalize debug).answerBy fragment index) :=
  same_runRule e.options.hopLimit index

theorem same_pursue (tasks : List Task) :
    Same (e.pursue tasks) ((e.dressed retouches capitalize debug).pursue tasks) := by
  induction tasks with
  | nil => exact same_pure _
  | cons task rest ih =>
    obtain ⟨fragment, index⟩ := task
    rw [pursue, pursue]
    refine (same_answerBy fragment index).bind fun reply => ?_
    cases reply with
    | none => exact ih
    | some text => exact same_pure _

theorem same_tryFragments (fragments : List String) :
    Same (e.tryFragments fragments)
      ((e.dressed retouches capitalize debug).tryFragments fragments) := by
  rw [tryFragments_eq, tryFragments_eq]
  refine (same_pursue _).bind fun reply => ?_
  cases reply with
  | none => exact same_pure _
  | some text => exact same_pure _

/-- A new seed is refused to alike conversations for the same reason, or starts them anew alike. -/
theorem same_reseed (seed : Data) :
    Same (e.reseed seed) ((e.dressed retouches capitalize debug).reseed seed) := by
  intro c c' alike
  rw [reseed, reseed, apply_bind, apply_bind, apply_get, apply_get]
  dsimp only
  rw [alike.source]
  cases c.source with
  | sequence draws drawn => exact ⟨alike, rfl⟩
  | seeded state =>
    dsimp only
    cases seedOf seed with
    | error b => exact ⟨alike, rfl⟩
    | ok state' => exact ⟨⟨rfl, congrArg (Session.reset e.rules) alike.session⟩, rfl⟩

/-! Calls: their answers are related if replies are related after their last touches. -/

theorem answer_reply_apply (input : String) (c : Conversation) :
    (e.answer (.reply input)).apply c =
      (((e.reply input).apply c).1.map some, ((e.reply input).apply c).2) := by
  rw [answer, apply_bind]
  rcases (e.reply input).apply c with ⟨f | text, c'⟩ <;> rfl

section

variable {related : Except Failure (Option String) → Except Failure (Option String) → Prop}
  (refl : ∀ outcome, related outcome outcome)
  (touched : ∀ reply, related ((e.polished reply).map some)
    (((e.dressed retouches capitalize debug).polished reply).map some))
include touched

theorem parallel_finish (reply : String) :
    Parallel (fun x y => related (x.map some) (y.map some)) (e.finish reply)
      ((e.dressed retouches capitalize debug).finish reply) := by
  intro c c' alike
  rw [finish_apply, finish_apply]
  exact ⟨alike, touched reply⟩

include refl

theorem parallel_fallBack :
    Parallel (fun x y => related (x.map some) (y.map some)) e.fallBack
      (e.dressed retouches capitalize debug).fallBack := by
  rw [fallBack, fallBack]
  refine .bind (fun _ => refl _) same_fetchKept? fun kept => ?_
  cases kept with
  | some reply =>
    refine Parallel.read fun c c' alike => ?_
    exact .bind (fun _ => refl _) same_note fun _ => parallel_finish touched reply
  | none =>
    refine .bind (fun _ => refl _) (same_answerBy _ _) fun reply => ?_
    cases reply with
    | some reply => exact parallel_finish touched reply
    | none => exact (same_pure _).weaken fun _ => refl _

theorem parallel_reply (input : String) :
    Parallel (fun x y => related (x.map some) (y.map some)) (e.reply input)
      ((e.dressed retouches capitalize debug).reply input) := by
  rw [reply, reply]
  refine .bind (fun _ => refl _) (same_changeSession _) fun _ => ?_
  refine .bind (fun _ => refl _) (same_tryFragments _) fun outcome => ?_
  cases outcome with
  | reply text => exact parallel_finish touched text
  | nothing => exact parallel_fallBack refl touched
  | farewell =>
    refine .bind (fun _ => refl _) (same_changeSession _) fun _ => ?_
    exact (same_pickText e.rules.finals).weaken fun _ => refl _

/-- In other looks a call is answered in parallel, if the last touches lead to related texts. -/
theorem parallel_answer (call : Call) :
    Parallel related (e.answer call) ((e.dressed retouches capitalize debug).answer call) := by
  have unchanged {t t' : Turn (Option String)} (same : Same t t') : Parallel related t t' :=
    same.weaken refl
  cases call with
  | reply input =>
    intro c c' alike
    obtain ⟨after, outcome⟩ := parallel_reply refl touched input c c' alike
    rw [answer_reply_apply, answer_reply_apply]
    dsimp only
    exact ⟨after, outcome⟩
  | greet =>
    rw [answer, answer]
    exact unchanged (Same.bind (same_pickText e.rules.initials) fun _ => same_pure _)
  | bidFarewell =>
    rw [answer, answer]
    exact unchanged (Same.bind (same_pickText e.rules.finals) fun _ => same_pure _)
  | reset =>
    rw [answer, answer]
    exact unchanged (Same.bind (same_changeSession (Session.reset e.rules)) fun _ => same_pure _)
  | reseed seed =>
    rw [answer, answer]
    exact unchanged (Same.bind (same_reseed seed) fun _ => same_pure _)

variable (related) in
/-- Alike conversations stay alike through all calls, and the answers are related one by one. -/
theorem parallel_answers (calls : List Call) {c c' : Conversation} (alike : c.Alike c') :
    (e.after c calls).Alike ((e.dressed retouches capitalize debug).after c' calls) ∧
      List.Forall₂ related (e.answers c calls)
        ((e.dressed retouches capitalize debug).answers c' calls) := by
  induction calls generalizing c c' with
  | nil => exact ⟨alike, .nil⟩
  | cons call rest ih =>
    obtain ⟨next, first⟩ := parallel_answer refl touched call c c' alike
    obtain ⟨after, others⟩ := ih next
    rw [after_cons, after_cons]
    exact ⟨after, .cons first others⟩

end

/-- Conversations that differ in their records only are answered the same. An engine in its own looks is
the engine itself. -/
theorem answers_of_alike (calls : List Call) {c c' : Conversation} (alike : c.Alike c') :
    e.answers c' calls = e.answers c calls ∧ (e.after c calls).Alike (e.after c' calls) := by
  have own : e.dressed e.rules.retouches e.options.capitalize e.options.debug = e := rfl
  have touched (reply : String) : (e.polished reply).map some =
      ((e.dressed e.rules.retouches e.options.capitalize e.options.debug).polished reply).map some :=
    rfl
  have side := parallel_answers Eq (fun _ => rfl) touched calls alike
  rw [own, List.forall₂_eq_eq_eq] at side
  exact ⟨side.2.symm, side.1⟩

end Engine
end Colloquy
