import Colloquy.Proofs.Conversation.Agenda
import Colloquy.Proofs.Conversation.Hops

/-! Fragments that no rule can take apart. Wherever one of them stands in an input, it leaves no trace:
nothing is drawn for it, nothing is kept and nothing is noted. -/

namespace Colloquy

/-- Whether no rule whose keyword stands in a fragment has a decomposition that matches it. Both are
looked for after the substitutions. -/
def RuleSet.Unanswerable (s : RuleSet) (fragment : String) : Prop :=
  let text := s.pres.applyTo fragment.toList
  ∀ r ∈ s.rules, r.appliesTo text → ∀ d ∈ r.decompositions, d.match? text = none

instance (s : RuleSet) (fragment : String) : Decidable (s.Unanswerable fragment) :=
  inferInstanceAs (Decidable (∀ r ∈ s.rules, _ → ∀ d ∈ r.decompositions, _ = none))

namespace Engine

open Turn

variable {e : Engine} {r : Rules.Rule} {fragment : List Char}

theorem tryDecompositions_unmatched (index depth : Nat) (hop : Option (Nat → Turn (Option String)))
    {ds : List (Rules.Decomposition × Nat)} (unmatched : ∀ p ∈ ds, p.1.match? fragment = none) :
    e.tryDecompositions r index depth hop fragment ds = return none := by
  induction ds with
  | nil => rfl
  | cons p rest ih =>
    obtain ⟨first, others⟩ := List.forall_mem_cons.mp unmatched
    rw [tryDecompositions, first]
    exact ih others

/-- A rule of which no decomposition matches comes to nothing, and nothing has happened. -/
theorem answerBy_unmatched {index : Nat} (found : e.rules.rules[index]? = some r)
    (unmatched : ∀ d ∈ r.decompositions, d.match? fragment = none) :
    e.answerBy fragment index = return none := by
  rw [answerBy, runRule_eq, found]
  exact tryDecompositions_unmatched index _ _ fun p member =>
    unmatched p.1 (List.fst_mem_of_mem_zipIdx member)

theorem pursue_unmatched {tasks : List Task}
    (unmatched : ∀ task ∈ tasks, e.answerBy task.1 task.2 = return none) :
    e.pursue tasks = return none := by
  induction tasks with
  | nil => rfl
  | cons task rest ih =>
    obtain ⟨first, others⟩ := List.forall_mem_cons.mp unmatched
    rw [pursue, first, pure_bind]
    exact ih others

/-- The tasks on a fragment that cannot be answered come to nothing, and leave nothing behind. -/
theorem pursue_tasks_unanswerable {f : String} (unanswerable : e.rules.Unanswerable f) :
    e.pursue (e.tasks f) = return none := by
  refine pursue_unmatched fun task member => ?_
  obtain ⟨⟨r, index⟩, fits, rfl⟩ := List.mem_map.mp member
  obtain ⟨found, applies⟩ := mem_fitting.mp fits
  exact answerBy_unmatched found (unanswerable r (List.mem_of_getElem? found) applies)

/-- Fragments lead to the same with and without one that cannot be answered. By induction on what comes
before: each of those may end the trial, and then both end. -/
theorem tryFragments_unanswerable {f : String} (stays : f ∉ e.rules.quits)
    (unanswerable : e.rules.Unanswerable f) (before rest : List String) :
    e.tryFragments (before ++ f :: rest) = e.tryFragments (before ++ rest) := by
  induction before with
  | nil =>
    have nothing : e.tryRules (e.rules.pres.applyTo f.toList) e.rules.rules.zipIdx = return none :=
      (tryRules_eq _ _).trans (pursue_tasks_unanswerable unanswerable)
    have unsaid : ¬ e.rules.quits.contains f := fun said => stays (List.contains_iff_mem.mp said)
    rw [List.nil_append, List.nil_append, tryFragments, if_neg unsaid, nothing, pure_bind]
  | cons g others ih =>
    rw [List.cons_append, List.cons_append, tryFragments, tryFragments, ih]

end Engine

/-- Two inputs, of which one has a fragment more that is no farewell and that no rule whose keyword
stands in it can take apart, are the same to a conversation, whatever was said before: they have the
same result, and leave the same source of numbers, memory, history and mark of a farewell behind. -/
theorem unanswerable_ignored (entries : List Script.Entry) (tables : Script) (s : RuleSet)
    (made : (Rules.compileSet entries tables).outcome = .ok s) (source : RandomSource)
    (settings : EngineSettings) (options : Options) (accepted : settings.check = .ok options) :
    ∃ e c, Engine.start s (.source source) settings = .ok (e, c) ∧
      ∀ calls before f rest input longer, Fragment.split input = before ++ rest →
        Fragment.split longer = before ++ f :: rest → f ∉ s.quits → s.Unanswerable f →
          (e.reply longer).apply (e.after c calls) = (e.reply input).apply (e.after c calls) := by
  obtain ⟨⟨_, _, ready⟩, _, _⟩ := Rules.compileSet_ok made
  obtain ⟨_, i, _, found, _⟩ := ready.fallback
  refine ⟨⟨s, i, options⟩, _, Rules.start_eq_ok found accepted source, ?_⟩
  intro calls before f rest input longer short long stays unanswerable
  have same : Engine.tryFragments ⟨s, i, options⟩ (Fragment.split longer) =
      Engine.tryFragments ⟨s, i, options⟩ (Fragment.split input) := by
    rw [short, long]
    exact Engine.tryFragments_unanswerable stays unanswerable before rest
  rw [Engine.reply, Engine.reply, same]

/-- A script whose one keyword asks for more than the word itself. -/
def naming : List Script.Entry :=
  [.rule ⟨"name", 1, [⟨"* my name is *", ["Hello (2)."]⟩]⟩,
    .rule ⟨Rules.fallbackKeyword, 0, [⟨"*", ["Go on."]⟩]⟩]

theorem naming_ignored : ∃ s e c, (Rules.compileSet naming .empty).outcome = .ok s ∧
    Engine.start s (.source halves) .default = .ok (e, c) ∧
    Fragment.split "Well, my name is Eve." = ["well"] ++ ["my name is eve"] ∧
    Fragment.split "Well, a name? My name is Eve." = ["well"] ++ "a name" :: ["my name is eve"] ∧
    "a name" ∉ s.quits ∧ s.Unanswerable "a name" ∧
    (e.reply "Well, a name? My name is Eve.").apply (e.after c bickering) =
      (e.reply "Well, my name is Eve.").apply (e.after c bickering) := by
  have checked : (Rules.compileSet naming .empty).outcome.toOption.any
      fun s => decide ("a name" ∉ s.quits ∧ s.Unanswerable "a name") := by decide +kernel
  obtain ⟨s, made, fits⟩ := exists_of_any checked
  obtain ⟨stays, unanswerable⟩ := of_decide_eq_true fits
  obtain ⟨e, c, started, ignored⟩ :=
    unanswerable_ignored naming .empty s made halves .default ⟨true, 20, 16, false⟩ rfl
  have short : Fragment.split "Well, my name is Eve." = ["well"] ++ ["my name is eve"] := by
    decide +kernel
  have long : Fragment.split "Well, a name? My name is Eve." =
      ["well"] ++ "a name" :: ["my name is eve"] := by decide +kernel
  exact ⟨s, e, c, made, started, short, long, stays, unanswerable,
    ignored bickering _ _ _ _ _ short long stays unanswerable⟩

end Colloquy
