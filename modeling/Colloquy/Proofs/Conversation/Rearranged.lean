import Colloquy.Proofs.Conversation.Agenda
import Colloquy.Proofs.Conversation.Hops
import Colloquy.Proofs.Rules.Rearranged

/-! Conversations with the same rules in another order of the script. They do not tell the orders
apart: nothing that is done in a conversation looks at the position of a rule in the script. -/

namespace Colloquy

open Rules (Rule)

namespace Engine

/-- An engine of which the rules do not remember their positions. -/
def unplaced (e : Engine) : Engine := { e with rules := e.rules.unplaced }

variable {e e' : Engine} {r : Rule} {fragment : List Char}

/-! Rules. -/

theorem attempt_unplaced (index depth : Nat) (hops : Bool) (p : Rules.Decomposition × Nat) :
    e.unplaced.attempt r.unplaced index depth hops fragment p =
      e.attempt r index depth hops fragment p := by
  rw [attempt, attempt]
  cases p.1.match? fragment with
  | none => rfl
  | some m =>
    refine bind_congr fun chosen => ?_
    rcases chosen with template | ⟨target, _ | i⟩
    · rfl
    · rfl
    · rfl

theorem tryDecompositions_unplaced (index depth : Nat) (hop : Option (Nat → Turn (Option String)))
    (ds : List (Rules.Decomposition × Nat)) :
    e.unplaced.tryDecompositions r.unplaced index depth hop fragment ds =
      e.tryDecompositions r index depth hop fragment ds := by
  induction ds with
  | nil => rfl
  | cons p rest ih =>
    rw [tryDecompositions_cons, tryDecompositions_cons, attempt_unplaced, ih]

theorem getElem?_unplaced (index : Nat) :
    e.unplaced.rules.rules[index]? = (e.rules.rules[index]?).map Rule.unplaced := List.getElem?_map

/-- A rule is run the same without the positions in the script, which are only looked at before. -/
theorem runRule_unplaced (hops index : Nat) :
    e.unplaced.runRule fragment hops index = e.runRule fragment hops index := by
  induction hops generalizing index with
  | zero =>
    rw [runRule, runRule, getElem?_unplaced]
    cases e.rules.rules[index]? with
    | none => rfl
    | some r => exact tryDecompositions_unplaced index _ none _
  | succ hops ih =>
    rw [runRule, runRule, getElem?_unplaced]
    cases e.rules.rules[index]? with
    | none => rfl
    | some r =>
      simp only [Option.map_some, ih]
      exact tryDecompositions_unplaced index _ _ _

theorem answerBy_unplaced (fragment : List Char) (index : Nat) :
    e.unplaced.answerBy fragment index = e.answerBy fragment index := runRule_unplaced _ index

/-! Inputs. -/

theorem tasks_unplaced (fragment : String) : e.unplaced.tasks fragment = e.tasks fragment := by
  simp only [tasks, fitting]
  change (List.filter _ ((e.rules.rules.map Rule.unplaced).zipIdx)).map _ = _
  rw [List.zipIdx_map, List.filter_map, List.map_map]
  rfl

theorem agenda_unplaced (fragments : List String) : e.unplaced.agenda fragments = e.agenda fragments := by
  induction fragments with
  | nil => rfl
  | cons fragment rest ih =>
    rw [agenda_cons, agenda_cons, tasks_unplaced, ih]
    rfl

theorem pursue_unplaced (tasks : List Task) : e.unplaced.pursue tasks = e.pursue tasks := by
  induction tasks with
  | nil => rfl
  | cons task rest ih =>
    obtain ⟨fragment, index⟩ := task
    rw [pursue, pursue, answerBy_unplaced, ih]

theorem reply_unplaced (input : String) : e.unplaced.reply input = e.reply input := by
  have tried (fragments : List String) : e.unplaced.tryFragments fragments = e.tryFragments fragments := by
    rw [tryFragments_eq, tryFragments_eq, agenda_unplaced, pursue_unplaced]
    rfl
  have fallen : e.unplaced.fallBack = e.fallBack := by
    rw [fallBack, fallBack, answerBy_unplaced]
    rfl
  rw [reply, reply, tried, fallen]
  rfl

/-! Calls. -/

theorem fresh_unplaced (s : RuleSet) : History.fresh s.unplaced = History.fresh s := by
  have slots : History.slots s.unplaced = History.slots s := by
    rw [History.slots, History.slots, RuleSet.unplaced, List.zipIdx_map, List.flatMap_map]
    rfl
  rw [History.fresh, History.fresh, slots]

theorem reset_unplaced : e.unplaced.reset = e.reset := by
  rw [reset, reset]
  refine congrArg Turn.changeSession (funext fun session => ?_)
  change Session.reset e.rules.unplaced session = _
  rw [Session.reset, Session.reset, fresh_unplaced]

theorem answer_unplaced (call : Call) : e.unplaced.answer call = e.answer call := by
  cases call with
  | reply input => rw [answer, answer, reply_unplaced]
  | greet => rfl
  | bidFarewell => rfl
  | reset => rw [answer, answer, reset_unplaced]
  | reseed seed => rw [answer, answer, reseed, reseed, reset_unplaced]

/-- Engines that differ in positions only answer the same. -/
theorem answer_eq_of_unplaced (same : e'.unplaced = e.unplaced) (call : Call) :
    e'.answer call = e.answer call := by
  calc e'.answer call
      = e'.unplaced.answer call := (answer_unplaced call).symm
    _ = e.unplaced.answer call := by rw [same]
    _ = e.answer call := answer_unplaced call

/-- A conversation starts the same without the positions in the script. -/
theorem start_unplaced (s : RuleSet) (offer : RandomSource.Offer) (settings : EngineSettings) :
    start s.unplaced offer settings = (start s offer settings).map fun p => (p.1.unplaced, p.2) := by
  have fallback : s.unplaced.fallback? = s.fallback? := Rules.indexOf?_unplaced _
  rw [start, start]
  cases offer.accept with
  | error f => rfl
  | ok source =>
    cases settings.check with
    | error p => rfl
    | ok options =>
      simp only [make, fallback, Session.start, fresh_unplaced]
      cases s.fallback? with
      | none => rfl
      | some i => rfl

/-- Rule sets that differ in positions only start alike. -/
theorem start_alike {s s' : RuleSet} (same : s'.unplaced = s.unplaced) (offer : RandomSource.Offer)
    (settings : EngineSettings) :
    (∃ f, start s offer settings = .error f ∧ start s' offer settings = .error f) ∨
      ∃ e e' c, start s offer settings = .ok (e, c) ∧ start s' offer settings = .ok (e', c) ∧
        e'.unplaced = e.unplaced := by
  have starts := start_unplaced s' offer settings
  rw [same, start_unplaced] at starts
  cases started : start s offer settings with
  | error f =>
    cases started' : start s' offer settings with
    | error f' =>
      rw [started, started'] at starts
      cases starts
      exact .inl ⟨f, rfl, rfl⟩
    | ok p =>
      rw [started, started'] at starts
      contradiction
  | ok p =>
    cases started' : start s' offer settings with
    | error f =>
      rw [started, started'] at starts
      contradiction
    | ok p' =>
      obtain ⟨e, c⟩ := p
      obtain ⟨e', c'⟩ := p'
      rw [started, started'] at starts
      obtain ⟨engines, rfl⟩ := Prod.mk.inj (Except.ok.inj starts)
      exact .inr ⟨e, e', c, rfl, rfl, engines.symm⟩

end Engine

/-- If rules of one rank keep their order, scripts with the same rules in another order are accepted
alike. The rule sets are then the same but for the positions in the script that their rules remember,
and all conversations with them are the same. -/
theorem rearranged_same (entries entries' : List Script.Entry) (tables : Script)
    (perm : entries.Perm entries')
    (order : ∀ k : Int, entries.filter (·.rank? == some k) = entries'.filter (·.rank? == some k)) :
    ((∃ s, (Rules.compileSet entries tables).outcome = .ok s) ↔
      ∃ s, (Rules.compileSet entries' tables).outcome = .ok s) ∧
    ∀ s s', (Rules.compileSet entries tables).outcome = .ok s →
      (Rules.compileSet entries' tables).outcome = .ok s' →
        s'.unplaced = s.unplaced ∧
        ∀ offer settings,
          (∃ f, Engine.start s offer settings = .error f ∧
            Engine.start s' offer settings = .error f) ∨
          ∃ e e' c, Engine.start s offer settings = .ok (e, c) ∧
            Engine.start s' offer settings = .ok (e', c) ∧
            ∀ calls, e'.answers c calls = e.answers c calls ∧ e'.after c calls = e.after c calls := by
  refine ⟨⟨?_, ?_⟩, ?_⟩
  · rintro ⟨s, made⟩
    obtain ⟨s', made', _⟩ := Rules.compileSet_rearranged perm order made
    exact ⟨s', made'⟩
  · rintro ⟨s, made⟩
    obtain ⟨s', made', _⟩ := Rules.compileSet_rearranged perm.symm (fun k => (order k).symm) made
    exact ⟨s', made'⟩
  · intro s s' made made'
    obtain ⟨_, other, same⟩ := Rules.compileSet_rearranged perm order made
    cases made'.symm.trans other
    refine ⟨same, fun offer settings => ?_⟩
    rcases Engine.start_alike same offer settings with failed | ⟨e, e', c, started, started', engines⟩
    · exact .inl failed
    · refine .inr ⟨e, e', c, started, started', fun calls => ?_⟩
      exact Engine.answers_congr (Engine.answer_eq_of_unplaced engines) calls c

/-- Neighbours of different rank may change places. -/
theorem filter_swap {a b : Script.Entry} (apart : a.rank? ≠ b.rank?) (rest : List Script.Entry)
    (k : Int) : (a :: b :: rest).filter (·.rank? == some k) =
      (b :: a :: rest).filter (·.rank? == some k) := by
  by_cases first : a.rank? = some k
  · have second : b.rank? ≠ some k := fun same => apart (first.trans same.symm)
    simp [first, second]
  · simp [List.filter_cons, first]

theorem quarrel_rearranged : ∃ a b rest, Rules.quarrel = a :: b :: rest ∧ ∃ s s' e e' c,
    (Rules.compileSet Rules.quarrel .empty).outcome = .ok s ∧
    (Rules.compileSet (b :: a :: rest) .empty).outcome = .ok s' ∧ s'.unplaced = s.unplaced ∧
    Engine.start s (.source halves) .default = .ok (e, c) ∧
    Engine.start s' (.source halves) .default = .ok (e', c) ∧
    e'.answers c bickering = e.answers c bickering ∧ e'.after c bickering = e.after c bickering := by
  obtain ⟨a, b, rest, shape, apart⟩ : ∃ a b rest, Rules.quarrel = a :: b :: rest ∧
      a.rank? ≠ b.rank? := ⟨_, _, _, rfl, by decide +kernel⟩
  have checked : (Rules.compileSet Rules.quarrel .empty).outcome.toOption.any fun _ => true := by
    decide +kernel
  obtain ⟨s, made, _⟩ := exists_of_any checked
  rw [shape] at made ⊢
  obtain ⟨accepted, same⟩ := rearranged_same (a :: b :: rest) (b :: a :: rest) .empty
    (.swap b a rest) (filter_swap apart rest)
  obtain ⟨s', made'⟩ := accepted.mp ⟨s, made⟩
  obtain ⟨unplaced, starts⟩ := same s s' made made'
  refine ⟨a, b, rest, rfl, s, s', ?_⟩
  rcases starts (.source halves) .default with ⟨f, failed, _⟩ | ⟨e, e', c, started, started', alike⟩
  · obtain ⟨⟨_, _, ready⟩, _, _⟩ := Rules.compileSet_ok made
    obtain ⟨_, i, _, found, _⟩ := ready.fallback
    have checked : EngineSettings.default.check = .ok ⟨true, 20, 16, false⟩ := rfl
    cases failed.symm.trans (Rules.start_eq_ok found checked halves)
  · exact ⟨e, e', c, made, made', unplaced, started, started', alike bickering⟩

end Colloquy
