import Colloquy.Proofs.Conversation.Attempt
import Colloquy.Proofs.Memory

/-! What an input sets going. The rules that may be run on it are settled beforehand, as an agenda;
they are run in its order until one of them replies, and nothing else is done on the way. -/

namespace Colloquy

def Conversation.resumed (c : Conversation) : Conversation :=
  { c with session := { c.session with quit := false } }

def Conversation.ended (c : Conversation) : Conversation :=
  { c with session := { c.session with quit := true } }

/-- A rule to be run, by its position, and the fragment to run it on. -/
abbrev Task := List Char × Nat

namespace Engine

open Turn

/-- The rules whose keywords stand in a fragment, each with its position, in the order of all rules. -/
def fitting (e : Engine) (fragment : List Char) : List (Rules.Rule × Nat) :=
  e.rules.rules.zipIdx.filter fun p => p.1.appliesTo fragment

/-- The tasks on one fragment. Keywords are looked for after the substitutions. -/
def tasks (e : Engine) (fragment : String) : List Task :=
  let text := e.rules.pres.applyTo fragment.toList
  (e.fitting text).map fun p => (text, p.2)

def isFarewell (e : Engine) (fragment : String) : Bool := e.rules.quits.contains fragment

/-- The tasks on all fragments before the first farewell. -/
def agenda (e : Engine) (fragments : List String) : List Task :=
  (fragments.takeWhile fun f => !e.isFarewell f).flatMap e.tasks

/-- Runs tasks until one of them replies. -/
def pursue (e : Engine) : List Task → Turn (Option String)
  | [] => return none
  | (fragment, index) :: rest => do
    match ← e.answerBy fragment index with
    | some reply => return some reply
    | none => e.pursue rest

/-- Tasks that are run one after another without a reply, from one conversation to the next. -/
inductive Fruitless (e : Engine) : Conversation → List Task → Conversation → Prop
  | nil {c : Conversation} : Fruitless e c [] c
  | cons {c c' c'' : Conversation} {fragment : List Char} {index : Nat} {rest : List Task}
      (run : (e.answerBy fragment index).apply c = (.ok none, c')) (others : Fruitless e c' rest c'') :
      Fruitless e c ((fragment, index) :: rest) c''

def polished (e : Engine) (reply : String) : Except Failure String :=
  (Retouch.polish e.rules.retouches e.options.capitalize reply).mapError .breakdown

/-- What the run of a rule makes of an input, if nothing more is tried. -/
def voiced (e : Engine) : Except Failure (Option String) → Except Failure String
  | .ok (some reply) => e.polished reply
  | .ok none => .ok lossForWords
  | .error f => .error f

def noteRecall (c : Conversation) : Conversation :=
  ((note .debug "Replying from memory"
    [("remaining", .data (.int c.session.memory.size))]).apply c).2

/-- How fragments are dealt with, from one conversation to the next. A task that does not come to
nothing settles the input. Otherwise it is a farewell, or a kept reply is given, and only where none
is kept the fallback rule is run. -/
inductive Handles (e : Engine) (fragments : List String) (c : Conversation) :
    Except Failure String → Conversation → Prop
  | settled {ran rest : List Task} {fragment : List Char} {index : Nat} {c' c'' : Conversation}
      {outcome : Except Failure (Option String)}
      (plan : e.agenda fragments = ran ++ (fragment, index) :: rest) (passed : e.Fruitless c ran c')
      (run : (e.answerBy fragment index).apply c' = (outcome, c'')) (ends : outcome ≠ .ok none) :
      Handles e fragments c (e.voiced outcome) c''
  | parted {c' c'' : Conversation} {result : Except Failure String}
      (passed : e.Fruitless c (e.agenda fragments) c') (farewell : ∃ f ∈ fragments, e.isFarewell f)
      (bid : e.bidFarewell.apply c'.ended = (result, c'')) : Handles e fragments c result c''
  | recalled {c' c'' : Conversation} {reply : String}
      (passed : e.Fruitless c (e.agenda fragments) c') (stays : ¬ ∃ f ∈ fragments, e.isFarewell f)
      (held : c'.session.memory.items ≠ []) (taken : fetchKept?.apply c' = (.ok (some reply), c'')) :
      Handles e fragments c (e.polished reply) (noteRecall c'')
  | unpicked {c' c'' : Conversation} {f : Failure}
      (passed : e.Fruitless c (e.agenda fragments) c') (stays : ¬ ∃ f ∈ fragments, e.isFarewell f)
      (held : c'.session.memory.items ≠ []) (refused : fetchKept?.apply c' = (.error f, c'')) :
      Handles e fragments c (.error f) c''
  | fellBack {c' c'' : Conversation} {outcome : Except Failure (Option String)}
      (passed : e.Fruitless c (e.agenda fragments) c') (stays : ¬ ∃ f ∈ fragments, e.isFarewell f)
      (empty : c'.session.memory.items = [])
      (run : (e.answerBy [' '] e.fallback).apply c' = (outcome, c'')) :
      Handles e fragments c (e.voiced outcome) c''

variable {e : Engine} {c c' c'' : Conversation} {fragments : List String} {ran rest : List Task}

/-! The agenda against the trial of fragments and rules. -/

/-- To try rules is to pursue the tasks for those whose keywords stand in the fragment. -/
theorem tryRules_eq (fragment : List Char) (rs : List (Rules.Rule × Nat)) :
    e.tryRules fragment rs =
      e.pursue ((rs.filter fun p => p.1.appliesTo fragment).map fun p => (fragment, p.2)) := by
  induction rs with
  | nil => rfl
  | cons p rest ih =>
    obtain ⟨r, index⟩ := p
    rw [tryRules, List.filter_cons]
    cases r.appliesTo fragment with
    | false => exact ih
    | true =>
      rw [if_pos rfl, if_pos rfl, List.map_cons, pursue]
      refine bind_congr fun reply => ?_
      cases reply with
      | none => exact ih
      | some text => rfl

theorem pursue_append (tasks others : List Task) :
    e.pursue (tasks ++ others) = do
      match ← e.pursue tasks with
      | none => e.pursue others
      | some reply => return some reply := by
  induction tasks with
  | nil => rfl
  | cons task rest ih =>
    obtain ⟨fragment, index⟩ := task
    simp only [List.cons_append, pursue, bind_assoc, ih]
    refine bind_congr fun reply => ?_
    cases reply with
    | none => rfl
    | some text => rfl

theorem agenda_cons (fragment : String) (rest : List String) :
    e.agenda (fragment :: rest) =
      if e.isFarewell fragment then [] else e.tasks fragment ++ e.agenda rest := by
  rw [agenda, List.takeWhile_cons]
  cases e.isFarewell fragment with
  | true => rfl
  | false => rfl

/-- What fragments lead to is what their agenda leads to, and a farewell or nothing where that leads to
no reply. -/
theorem tryFragments_eq (fragments : List String) :
    e.tryFragments fragments = do
      match ← e.pursue (e.agenda fragments) with
      | some reply => return .reply reply
      | none => return if fragments.any e.isFarewell then .farewell else .nothing := by
  induction fragments with
  | nil => rfl
  | cons fragment rest ih =>
    rw [tryFragments, agenda_cons, List.any_cons]
    change (if e.isFarewell fragment then _ else _) = _
    cases e.isFarewell fragment with
    | true => rfl
    | false =>
      have first : e.tryRules (e.rules.pres.applyTo fragment.toList) e.rules.rules.zipIdx =
          e.pursue (e.tasks fragment) := tryRules_eq _ _
      rw [first, ih]
      simp only [Bool.false_eq_true, if_false, pursue_append, bind_assoc, Bool.false_or]
      refine bind_congr fun reply => ?_
      cases reply with
      | none => rfl
      | some text => rfl

/-! The run of an agenda. -/

/-- An agenda comes to nothing, or up to the first task that does not. By induction on the tasks: only
one that comes to nothing hands on to the rest. -/
theorem pursue_cases (e : Engine) (tasks : List Task) (c : Conversation) :
    (∃ c', e.Fruitless c tasks c' ∧ (e.pursue tasks).apply c = (.ok none, c')) ∨
      ∃ ran fragment index rest c' c'' outcome, tasks = ran ++ (fragment, index) :: rest ∧
        e.Fruitless c ran c' ∧ (e.answerBy fragment index).apply c' = (outcome, c'') ∧
        outcome ≠ .ok none ∧ (e.pursue tasks).apply c = (outcome, c'') := by
  induction tasks generalizing c with
  | nil => exact .inl ⟨c, .nil, rfl⟩
  | cons task rest ih =>
    obtain ⟨fragment, index⟩ := task
    rcases run : (e.answerBy fragment index).apply c with ⟨f | reply, c₁⟩
    · have stopped : (e.pursue ((fragment, index) :: rest)).apply c = (.error f, c₁) := by
        rw [pursue, apply_bind, run]
      exact .inr ⟨[], fragment, index, rest, c, c₁, _, rfl, .nil, run, by simp, stopped⟩
    · cases reply with
      | some text =>
        have stopped : (e.pursue ((fragment, index) :: rest)).apply c = (.ok (some text), c₁) := by
          rw [pursue, apply_bind, run]
          rfl
        exact .inr ⟨[], fragment, index, rest, c, c₁, _, rfl, .nil, run, by simp, stopped⟩
      | none =>
        have onward : (e.pursue ((fragment, index) :: rest)).apply c = (e.pursue rest).apply c₁ := by
          rw [pursue, apply_bind, run]
        rw [onward]
        rcases ih c₁ with ⟨c', passed, done⟩ |
          ⟨ran, fragment', index', rest', c', c'', outcome, plan, passed, run', ends, done⟩
        · exact .inl ⟨c', .cons run passed, done⟩
        · exact .inr ⟨(fragment, index) :: ran, fragment', index', rest', c', c'', outcome,
            by rw [plan]; rfl, .cons run passed, run', ends, done⟩

theorem finish_apply (reply : String) (c : Conversation) :
    (e.finish reply).apply c = (e.polished reply, c) := by
  rw [finish, polished]
  cases Retouch.polish e.rules.retouches e.options.capitalize reply with
  | ok text => rfl
  | error b => rfl

theorem fetchKept?_empty (empty : c.session.memory.items = []) :
    fetchKept?.apply c = (.ok none, c) := by
  simp [fetchKept?, apply_bind, empty]

/-- Where replies are kept, a number is drawn and the memory serves it. -/
theorem fetchKept?_apply (held : c.session.memory.items ≠ []) :
    fetchKept?.apply c =
      ((c.session.memory.serve (.take c.source.next.1)).1.mapError .breakdown,
        { c with
          source := c.source.next.2,
          session := { c.session with
            memory := (c.session.memory.serve (.take c.source.next.1)).2 } }) := by
  have some_ : c.session.memory.items.isEmpty = false := by simpa using held
  simp only [fetchKept?, apply_bind, apply_get, some_, Bool.false_eq_true, if_false, pick_apply,
    Memory.serve, Memory.fetch]
  cases pickIndex c.source.next.1 c.session.memory.size with
  | error b => rfl
  | ok index =>
    simp only [Except.mapError]
    cases c.session.memory.take? index.toNat with
    | none => rfl
    | some taken => rfl

theorem fetchKept?_ne_none (held : c.session.memory.items ≠ []) :
    (fetchKept?.apply c).1 ≠ .ok none := by
  rw [fetchKept?_apply held]
  rcases Memory.serve_take held c.source.next.1 with ⟨b, _, served⟩ | ⟨index, inside, _, served⟩
  · simp [served, Except.mapError]
  · simp [served, Except.mapError]

/-- What an input does that no task replies to and that is no farewell. -/
theorem fallBack_handles (passed : e.Fruitless c (e.agenda fragments) c')
    (stays : ¬ ∃ f ∈ fragments, e.isFarewell f) :
    e.Handles fragments c (e.fallBack.apply c').1 (e.fallBack.apply c').2 := by
  rw [fallBack, apply_bind]
  by_cases empty : c'.session.memory.items = []
  · rw [fetchKept?_empty empty]
    simp only [apply_bind]
    rcases run : (e.answerBy [' '] e.fallback).apply c' with ⟨f | reply, c''⟩
    · exact .fellBack passed stays empty run
    · cases reply with
      | none => exact .fellBack passed stays empty run
      | some text =>
        simp only [finish_apply]
        exact .fellBack passed stays empty run
  · have some_ := fetchKept?_ne_none empty
    rcases taken : fetchKept?.apply c' with ⟨f | reply, c''⟩
    · exact .unpicked passed stays empty taken
    · cases reply with
      | none =>
        rw [taken] at some_
        exact absurd rfl some_
      | some text =>
        have noted : (note .debug "Replying from memory"
            [("remaining", .data (.int c''.session.memory.size))]).apply c'' =
              (.ok (), noteRecall c'') := rfl
        simp only [apply_bind, apply_get, noted, finish_apply]
        exact .recalled passed stays empty taken

/-- An input is answered in three ways: by a task of its agenda, by a farewell, or by falling back. -/
theorem reply_apply (input : String) (c : Conversation) :
    (e.reply input).apply c =
      match (e.pursue (e.agenda (Fragment.split input))).apply c.resumed with
      | (.ok (some reply), c') => (e.polished reply, c')
      | (.error f, c') => (.error f, c')
      | (.ok none, c') =>
        if (Fragment.split input).any e.isFarewell then e.bidFarewell.apply c'.ended
        else e.fallBack.apply c' := by
  rw [reply, apply_bind, apply_changeSession]
  change (_ : Turn String).apply c.resumed = _
  rw [tryFragments_eq, bind_assoc, apply_bind]
  rcases (e.pursue (e.agenda (Fragment.split input))).apply c.resumed with ⟨f | reply, c'⟩
  · rfl
  · cases reply with
    | some reply => exact finish_apply reply c'
    | none =>
      simp only [pure_bind]
      cases (Fragment.split input).any e.isFarewell with
      | true =>
        simp only [if_true]
        rw [apply_bind, apply_changeSession]
        rfl
      | false => simp only [Bool.false_eq_true, if_false]

/-- Any input is handled by its fragments, from any conversation on. -/
theorem reply_handles (e : Engine) (input : String) (c : Conversation) :
    e.Handles (Fragment.split input) c.resumed ((e.reply input).apply c).1
      ((e.reply input).apply c).2 := by
  rw [reply_apply]
  rcases e.pursue_cases (e.agenda (Fragment.split input)) c.resumed with ⟨c', passed, done⟩ |
    ⟨ran, fragment, index, rest, c', c'', outcome, plan, passed, run, ends, done⟩
  · rw [done]
    by_cases farewell : (Fragment.split input).any e.isFarewell
    · simp only [farewell, if_true]
      exact .parted passed (List.any_eq_true.mp farewell) Prod.mk.eta.symm
    · have stays : ¬ ∃ f ∈ Fragment.split input, e.isFarewell f :=
        fun found => farewell (List.any_eq_true.mpr found)
      simp only [farewell, Bool.false_eq_true, if_false]
      exact fallBack_handles passed stays
  · have settled := Handles.settled plan passed run ends
    rw [done]
    rcases outcome with f | reply
    · exact settled
    · cases reply with
      | none => exact absurd rfl ends
      | some text => exact settled

/-! The order of an agenda. -/

theorem mem_fitting {fragment : List Char} {r : Rules.Rule} {index : Nat} :
    (r, index) ∈ e.fitting fragment ↔ e.rules.rules[index]? = some r ∧ r.appliesTo fragment := by
  rw [fitting, List.mem_filter, List.mk_mem_zipIdx_iff_getElem?]

/-- The rules that fit a fragment are tried by rank, and by position at one rank. -/
theorem fitting_ordered (ordered : e.rules.rules.Pairwise Rules.Precedes) (fragment : List Char) :
    (e.fitting fragment).Pairwise fun p q => Rules.Precedes p.1 q.1 := by
  refine List.Pairwise.filter _ (List.pairwise_map.mp ?_)
  rwa [List.zipIdx_map_fst]

end Engine

/-- The rules that may reply to a fragment are those whose keywords stand in it, by rank and then by
position in the script. Every input is handled by running them, fragment by fragment, until one of
them replies, and nothing else is done but what an input without a reply calls for. -/
theorem input_handled (entries : List Script.Entry) (tables : Script) (s : RuleSet)
    (made : (Rules.compileSet entries tables).outcome = .ok s) (source : RandomSource)
    (settings : EngineSettings) (options : Options) (accepted : settings.check = .ok options) :
    (∃ written, entries.mapM Script.Entry.toRule = .ok written ∧
      Rules.Ready tables.synonyms written s.rules) ∧
    ∃ e c, Engine.start s (.source source) settings = .ok (e, c) ∧ e.rules = s ∧
      (∃ r, s.rules[e.fallback]? = some r ∧ r.keyword = Rules.fallbackKeyword) ∧
      (∀ fragment, (e.fitting fragment).Pairwise (fun p q => Rules.Precedes p.1 q.1) ∧
        ∀ r index, (r, index) ∈ e.fitting fragment ↔
          s.rules[index]? = some r ∧ r.appliesTo fragment) ∧
      ∀ calls input, e.Handles (Fragment.split input) (e.after c calls).resumed
        ((e.reply input).apply (e.after c calls)).1 ((e.reply input).apply (e.after c calls)).2 := by
  obtain ⟨⟨written, read, ready⟩, _, _⟩ := Rules.compileSet_ok made
  obtain ⟨_, i, r, found, at_i, keyword, _⟩ := ready.fallback
  refine ⟨⟨written, read, ready⟩, _, _, Rules.start_eq_ok found accepted source, rfl,
    ⟨r, at_i, keyword⟩, fun fragment => ⟨?_, fun r index => ?_⟩, fun calls input => ?_⟩
  · exact Engine.fitting_ordered (e := ⟨s, i, options⟩) ready.ordered fragment
  · exact Engine.mem_fitting (e := ⟨s, i, options⟩)
  · exact Engine.reply_handles _ input _

theorem quarrel_handled : ∃ s e c, (Rules.compileSet Rules.quarrel .empty).outcome = .ok s ∧
    Engine.start s (.source halves) .default = .ok (e, c) ∧
    e.Handles (Fragment.split "Never, but always.") (e.after c bickering).resumed
      ((e.reply "Never, but always.").apply (e.after c bickering)).1
      ((e.reply "Never, but always.").apply (e.after c bickering)).2 := by
  have checked : (Rules.compileSet Rules.quarrel .empty).outcome.toOption.any fun _ => true := by
    decide +kernel
  obtain ⟨s, made, _⟩ := exists_of_any checked
  obtain ⟨_, e, c, started, _, _, _, handled⟩ :=
    input_handled Rules.quarrel .empty s made halves .default ⟨true, 20, 16, false⟩ rfl
  exact ⟨s, e, c, made, started, handled bickering "Never, but always."⟩

end Colloquy
