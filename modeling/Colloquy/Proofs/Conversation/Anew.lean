import Colloquy.Proofs.Conversation.Hops
import Colloquy.Proofs.Conversation.Parallel

/-! Starting anew. A new seed takes a conversation back to where one with that seed begins: nothing that
was said before shows in what is said after. -/

namespace Colloquy

/-- Whether all that calls may do to a conversation keeps what holds of it. -/
structure Conversation.Enduring (holds : Conversation → Prop) : Prop extends
    Conversation.Lasting holds where
  mark : ∀ c quit, holds c → holds { c with session := { c.session with quit } }
  take : ∀ c memory, memory.capacity = c.session.memory.capacity → holds c →
    holds { c with session := { c.session with memory } }
  reset : ∀ c rules, holds c → holds { c with session := c.session.reset rules }
  reseed : ∀ c state state', c.source = .seeded state → holds c →
    holds { c with source := .seeded state' }

namespace Engine

open Turn

variable {e : Engine} {holds : Conversation → Prop}

/-! What calls keep. -/

section

variable (enduring : Conversation.Enduring holds)
include enduring

theorem keeps_pursue (tasks : List Task) : Keeps holds (e.pursue tasks) := by
  induction tasks with
  | nil => exact keeps_pure _
  | cons task rest ih =>
    obtain ⟨fragment, index⟩ := task
    rw [pursue]
    refine (keeps_answerBy enduring.toLasting fragment index).bind fun reply => ?_
    cases reply with
    | none => exact ih
    | some text => exact keeps_pure _

theorem keeps_fetchKept? : Keeps holds fetchKept? := by
  intro c before
  by_cases empty : c.session.memory.items = []
  · rw [fetchKept?_empty empty]
    exact ⟨before, trivial⟩
  · rw [fetchKept?_apply empty]
    have drawn := enduring.draw c before
    have capacity := Memory.serve_capacity c.session.memory (.take c.source.next.1)
    refine ⟨enduring.take { c with source := c.source.next.2 } _ capacity drawn, ?_⟩
    split <;> trivial

omit enduring in
theorem keeps_finish (reply : String) : Keeps holds (e.finish reply) := by
  intro c before
  rw [finish_apply]
  refine ⟨before, ?_⟩
  split <;> trivial

theorem keeps_fallBack : Keeps holds e.fallBack := by
  refine (keeps_fetchKept? enduring).bind fun kept => ?_
  cases kept with
  | some reply =>
    refine Keeps.bind .read fun c => ?_
    exact (keeps_note enduring.toSteady _ _ _).bind fun _ => keeps_finish reply
  | none =>
    refine (keeps_answerBy enduring.toLasting _ _).bind fun reply => ?_
    cases reply with
    | some text => exact keeps_finish text
    | none => exact keeps_pure _

theorem keeps_reply (input : String) : Keeps holds (e.reply input) := by
  have marks (quit : Bool) : Keeps holds (changeSession fun s => { s with quit }) :=
    .change fun c before => enduring.mark c quit before
  rw [reply]
  refine (marks false).bind fun _ => Keeps.bind ?_ fun outcome => ?_
  · rw [tryFragments_eq]
    refine (keeps_pursue enduring _).bind fun reply => ?_
    cases reply with
    | some text => exact keeps_pure _
    | none => exact keeps_pure _
  · cases outcome with
    | reply text => exact keeps_finish text
    | nothing => exact keeps_fallBack enduring
    | farewell => exact (marks true).bind fun _ => keeps_pickText enduring.toSteady _

theorem keeps_reseed (seed : Data) : Keeps holds (e.reseed seed) := by
  intro c before
  simp only [reseed, apply_bind, apply_get]
  cases origin : c.source with
  | sequence draws drawn => exact ⟨before, trivial⟩
  | seeded state =>
    dsimp only
    cases seedOf seed with
    | error b => exact ⟨before, trivial⟩
    | ok state' =>
      have seeded := enduring.reseed c state state' origin before
      exact ⟨enduring.reset _ e.rules seeded, trivial⟩

theorem keeps_answer (call : Call) : Keeps holds (e.answer call) := by
  cases call with
  | reply input => exact (keeps_reply enduring input).bind fun _ => keeps_pure _
  | greet => exact (keeps_pickText enduring.toSteady _).bind fun _ => keeps_pure _
  | bidFarewell => exact (keeps_pickText enduring.toSteady _).bind fun _ => keeps_pure _
  | reset =>
    have resets : Keeps holds e.reset := .change fun c before => enduring.reset c e.rules before
    exact resets.bind fun _ => keeps_pure _
  | reseed seed => exact (keeps_reseed enduring seed).bind fun _ => keeps_pure _

/-- What no call breaks holds after any calls, some of which may fail. -/
theorem after_keeps (calls : List Call) {c : Conversation} (before : holds c) :
    holds (e.after c calls) := by
  induction calls generalizing c with
  | nil => exact before
  | cons call rest ih =>
    rw [after_cons]
    exact ih (keeps_answer enduring call c before).1

end

/-! What stays through a conversation: how many replies may be kept, and whether its source of numbers
can be started again. -/

theorem enduring_capacity (capacity : Int) :
    Conversation.Enduring fun c => c.session.memory.capacity = capacity where
  draw _ same := same
  choice _ _ same := same
  record _ _ same := same
  save _ _ same := same
  mark _ _ same := same
  take _ _ kept same := kept.trans same
  reset _ _ same := same
  reseed _ _ _ _ same := same

theorem enduring_isReseedable (seedable : Bool) :
    Conversation.Enduring fun c => c.source.isReseedable = seedable where
  draw c same := by
    rw [← same]
    cases c.source <;> rfl
  choice _ _ same := same
  record _ _ same := same
  save _ _ same := same
  mark _ _ same := same
  take _ _ _ same := same
  reset _ _ same := same
  reseed c state state' origin same := by
    rw [← same, origin]
    rfl

/-! The start. -/

/-- A conversation that starts with one source starts with any other, with the same engine. -/
theorem start_ok {rules : RuleSet} {source : RandomSource} {settings : EngineSettings}
    {c : Conversation} (started : start rules (.source source) settings = .ok (e, c)) :
    e.rules = rules ∧ c = ⟨source, .start rules e.options.capacity, []⟩ ∧
      ∀ source', start rules (.source source') settings =
        .ok (e, ⟨source', .start rules e.options.capacity, []⟩) := by
  cases checked : settings.check with
  | error p =>
    simp only [start, RandomSource.Offer.accept, checked] at started
    contradiction
  | ok options =>
    cases found : rules.fallback? with
    | none =>
      simp only [start, make, RandomSource.Offer.accept, checked, found] at started
      contradiction
    | some i =>
      have starts := Rules.start_eq_ok found checked
      rw [starts source] at started
      cases started
      exact ⟨rfl, rfl, starts⟩

theorem seedOf_elim (seed : Option Int) :
    ∃ state, seedOf (seed.elim .null .int) = .ok state ∧
      RandomSource.ofSeed (seed.getD 0) = .seeded state := by
  cases seed with
  | none => exact ⟨defaultSeed, rfl, rfl⟩
  | some n =>
    by_cases zero : n = 0
    · subst zero
      exact ⟨defaultSeed, rfl, rfl⟩
    · refine ⟨n, ?_, ?_⟩
      · simp [seedOf, Data.isTruthy, zero]
      · simp [RandomSource.ofSeed, zero]

/-- A new seed starts the generator and the session again. The records stay. -/
theorem reseed_seeded {c : Conversation} {state : Int} (origin : c.source = .seeded state)
    {seed : Data} {state' : Int} (read : seedOf seed = .ok state') :
    (e.reseed seed).apply c =
      (.ok (), { c with source := .seeded state', session := c.session.reset e.rules }) := by
  simp only [reseed, apply_bind, apply_get, origin, read]
  rfl

/-- A sequence cannot be started again, and the refusal changes nothing. -/
theorem reseed_sequence {c : Conversation} {draws : Draws} {drawn : Nat}
    (origin : c.source = .sequence draws drawn) (seed : Data) :
    (e.reseed seed).apply c =
      (.error (.reported (.settings (.notReseedable c.source.shown))), c) := by
  simp only [reseed, apply_bind, apply_get, origin]
  rfl

/-- Back at the start with the capacity that it had, a session is as at its start. -/
theorem reset_eq_start {session : Session} {capacity : Int} (rules : RuleSet)
    (same : session.memory.capacity = capacity) : session.reset rules = .start rules capacity := by
  subst same
  rfl

end Engine

/-- After a new seed, or none for the default one, all calls are answered as in a conversation that
begins with it, and leave the same source and the same session behind. A source that cannot be started
again is refused, and then nothing changes. Two conversations that differ in the notes made so far go on
alike, as no call reads those. -/
theorem reseeded_anew (rules : RuleSet) (settings : EngineSettings) (source : RandomSource)
    (e : Engine) (c : Conversation)
    (started : Engine.start rules (.source source) settings = .ok (e, c)) (calls : List Call) :
    (source.isReseedable = true → ∀ seed : Option Int, ∃ c₁ c₀,
      (e.reseed (seed.elim .null .int)).apply (e.after c calls) = (.ok (), c₁) ∧
      Engine.start rules (.source (.ofSeed (seed.getD 0))) settings = .ok (e, c₀) ∧
      ∀ further, e.answers c₁ further = e.answers c₀ further ∧
        (e.after c₁ further).source = (e.after c₀ further).source ∧
        (e.after c₁ further).session = (e.after c₀ further).session) ∧
    (source.isReseedable = false → ∀ seed : Data, ∃ p : Problem,
      (e.reseed seed).apply (e.after c calls) = (.error (.reported p), e.after c calls) ∧
      p.report.family = .settings) := by
  obtain ⟨same, begun, starts⟩ := Engine.start_ok started
  have capacity : (e.after c calls).session.memory.capacity = e.options.capacity :=
    Engine.after_keeps (Engine.enduring_capacity e.options.capacity) calls (by rw [begun]; rfl)
  have seedable : (e.after c calls).source.isReseedable = source.isReseedable :=
    Engine.after_keeps (Engine.enduring_isReseedable source.isReseedable) calls (by rw [begun])
  constructor
  · intro able seed
    rw [able] at seedable
    obtain ⟨state', read, fresh⟩ := Engine.seedOf_elim seed
    rw [fresh]
    cases origin : (e.after c calls).source with
    | sequence draws drawn =>
      rw [origin] at seedable
      contradiction
    | seeded state =>
      refine ⟨_, _, Engine.reseed_seeded origin read, starts (.seeded state'), ?_⟩
      intro further
      rw [same, Engine.reset_eq_start rules capacity]
      have alike : Conversation.Alike ⟨.seeded state', .start rules e.options.capacity, []⟩
          { e.after c calls with
            source := .seeded state', session := .start rules e.options.capacity } := ⟨rfl, rfl⟩
      obtain ⟨answered, left⟩ := Engine.answers_of_alike (e := e) further alike
      exact ⟨answered, left.source, left.session⟩
  · intro unable seed
    rw [unable] at seedable
    cases origin : (e.after c calls).source with
    | seeded state =>
      rw [origin] at seedable
      contradiction
    | sequence draws drawn => exact ⟨_, Engine.reseed_sequence origin seed, rfl⟩

theorem quarrel_anew : ∃ s e c, (Rules.compileSet Rules.quarrel .empty).outcome = .ok s ∧
    Engine.start s (.source (.ofSeed 3)) .default = .ok (e, c) ∧
    ∃ c₁ c₀, (e.reseed .null).apply (e.after c bickering) = (.ok (), c₁) ∧
      Engine.start s (.source (.ofSeed 0)) .default = .ok (e, c₀) ∧
      e.answers c₁ bickering = e.answers c₀ bickering := by
  have checked : (Rules.compileSet Rules.quarrel .empty).outcome.toOption.any fun _ => true := by
    decide +kernel
  obtain ⟨s, made, _⟩ := exists_of_any checked
  obtain ⟨⟨_, _, ready⟩, _, _⟩ := Rules.compileSet_ok made
  obtain ⟨_, i, _, found, _⟩ := ready.fallback
  have accepted : EngineSettings.default.check = .ok ⟨true, 20, 16, false⟩ := rfl
  have started := Rules.start_eq_ok found accepted (.ofSeed 3)
  obtain ⟨anew, _⟩ := reseeded_anew s .default (.ofSeed 3) _ _ started bickering
  obtain ⟨c₁, c₀, reseeded, fresh, same⟩ := anew rfl none
  exact ⟨s, _, _, made, started, c₁, c₀, reseeded, fresh, (same bickering).1⟩

end Colloquy
