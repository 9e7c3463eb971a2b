import Colloquy.Proofs.Conversation.Keeping

/-! Redirections come to an end by themselves. They never lead back to a rule, so that those that are
followed one after the other lead to different rules, and a limit that allows for all rules but one is
never met. -/

namespace Colloquy

open Relation (TransGen)
open Rules (Redirects)

namespace Rules

variable {rules : List Rule} {path : List Nat} {i j : Nat}

/-- Whether redirections lead to rules that there are and never back. -/
structure Ending (rules : List Rule) : Prop where
  acyclic : ∀ i, ¬ TransGen (Redirects rules) i i
  linked : ∀ i j, Redirects rules i j → j < rules.length

/-- The redirections among rules that are ready come to an end. -/
theorem Ready.ending {synonyms : List Pattern.Synonym} {written : List Script.Rule}
    (ready : Ready synonyms written rules) : Ending rules where
  acyclic := ready.acyclic
  linked := by
    rintro i j ⟨r, found, d, hd, target, ha⟩
    obtain ⟨_, ⟨_, at_j, _⟩, _⟩ :=
      ready.linked r (List.mem_of_getElem? found) d hd target (some j) ha
    exact (List.getElem?_eq_some_iff.mp at_j).1

/-- The positions of rules that redirections have led through, given from the last one. -/
structure Way (rules : List Rule) (path : List Nat) : Prop where
  chain : path.IsChain fun i j => Redirects rules j i
  inside : ∀ i ∈ path, i < rules.length

namespace Way

theorem start (inside : i < rules.length) : Way rules [i] :=
  ⟨.singleton i, by simpa using inside⟩

theorem extend (way : Way rules (i :: path)) (ending : Ending rules)
    (redirects : Redirects rules i j) : Way rules (j :: i :: path) :=
  ⟨List.isChain_cons_cons.mpr ⟨redirects, way.chain⟩,
    List.forall_mem_cons.mpr ⟨ending.linked i j redirects, way.inside⟩⟩

/-- No rule stands twice on a way, as redirections never lead back. -/
theorem nodup (way : Way rules path) (ending : Ending rules) : path.Nodup := by
  have reached : path.IsChain fun i j => TransGen (Redirects rules) j i :=
    way.chain.imp fun _ _ redirects => .single redirects
  have : IsTrans Nat fun i j => TransGen (Redirects rules) j i := ⟨fun _ _ _ first next => next.trans first⟩
  refine (List.isChain_iff_pairwise.mp reached).imp fun {i j} leads same => ?_
  exact ending.acyclic i (same ▸ leads)

/-- A way leads through every rule once at most. -/
theorem length_le (way : Way rules path) (ending : Ending rules) : path.length ≤ rules.length := by
  have inside : path ⊆ List.range rules.length :=
    fun i member => List.mem_range.mpr (way.inside i member)
  simpa using ((way.nodup ending).subperm inside).length_le

end Way
end Rules

namespace Event

def isFollowed : Event → Bool
  | .followed _ _ => true
  | _ => false

def isLeft : Event → Bool
  | .left _ _ => true
  | _ => false

end Event

namespace Engine

open Rules (Ending Way)
open Watched (Leads Keeps)

variable {e : Engine} {r : Rules.Rule} {fragment : List Char} {hops index : Nat} {path : List Nat}

/-! One rule after another. -/

def hop? (e : Engine) (fragment : List Char) : (hops : Nat) → Option (Nat → Turn (Option String))
  | 0 => none
  | hops + 1 => some (e.runRule fragment hops)

theorem runRule_eq : e.runRule fragment hops index =
    match e.rules.rules[index]? with
    | none => Turn.breakDown .outOfRange
    | some r => e.tryDecompositions r index (e.options.hopLimit - hops) (e.hop? fragment hops)
        fragment r.decompositions.zipIdx := by
  cases hops <;> rfl

def watchHop? (e : Engine) (fragment : List Char) :
    (hops : Nat) → Option (Nat → Watched (Option String))
  | 0 => none
  | hops + 1 => some (e.watchRule fragment hops)

theorem watchRule_eq : e.watchRule fragment hops index =
    match e.rules.rules[index]? with
    | none => .quiet (Turn.breakDown .outOfRange)
    | some r => e.watchDecompositions fragment r index (e.options.hopLimit - hops)
        (e.watchHop? fragment hops) r.decompositions.zipIdx := by
  cases hops <;> rfl

theorem redirects_of_mem (found : e.rules.rules[index]? = some r)
    {p : Rules.Decomposition × Nat} (member : p ∈ r.decompositions.zipIdx) {target : String} {i : Nat}
    (reassembly : Reassembly.redirect target (some i) ∈ p.1.reassemblies) :
    Redirects e.rules.rules index i :=
  ⟨r, found, p.1, List.fst_mem_of_mem_zipIdx member, target, reassembly⟩

/-- Where a rule leads if its choices and redirections that are left keep what holds, and the rules
it redirects to lead there. -/
theorem watchRule_leads {holds result : List Event → History → Prop}
    (weaker : ∀ past h, holds past h → result past h)
    (chosen : ∀ r, e.rules.rules[index]? = some r → ∀ p ∈ r.decompositions.zipIdx,
      Keeps holds (.choose (index, p.2) p.1.reassemblies.length))
    (followed : ∀ i, Redirects e.rules.rules index i → ∀ fewer, hops = fewer + 1 →
      Leads holds result do
        Watched.see (.followed index i)
        e.watchRule fragment fewer i)
    (left : hops = 0 → ∀ i, Redirects e.rules.rules index i →
      Keeps holds (.see (.left index i))) :
    Leads holds result (e.watchRule fragment hops index) := by
  rw [watchRule_eq]
  split
  · exact (Leads.quiet (Turn.silent_breakDown _)).weaken weaker
  · next r found =>
    refine watchDecompositions_leads weaker (chosen r found) ?_ ?_
    · intro p member target i reassembly follow hop
      cases hops with
      | zero => contradiction
      | succ fewer =>
        cases hop
        exact followed i (redirects_of_mem found member reassembly) fewer rfl
    · intro p member target i reassembly nothing
      cases hops with
      | zero => exact left rfl i (redirects_of_mem found member reassembly)
      | succ fewer => contradiction

/-! How many redirections are followed, and that none is left. -/

/-- Whether at most so many redirections have been followed. -/
def AtMost (most : Nat) (past : List Event) (_ : History) : Prop := past.countP Event.isFollowed ≤ most

/-- Each redirection that is followed leads on along a way, which has room for so many more. Where one
more is followed, there is room for one less. -/
theorem watchRule_atMost (ending : Ending e.rules.rules) (way : Way e.rules.rules (index :: path))
    (most : Nat) : Leads (AtMost most) (AtMost (most + (e.rules.rules.length - (path.length + 1))))
      (e.watchRule fragment hops index) := by
  induction hops using Nat.strong_induction_on generalizing index path most with
  | _ hops ih =>
    refine watchRule_leads (fun past h before => before.trans (Nat.le_add_right _ _))
      (fun r _ p _ => Watched.choose_keeps fun past h x candidate _ before => ?_) ?_ ?_
    · simpa [AtMost, Event.isFollowed] using before
    · rintro i redirects fewer rfl
      have onward := way.extend ending redirects
      have room : path.length + 2 ≤ e.rules.rules.length := onward.length_le ending
      have total : most + (e.rules.rules.length - (path.length + 1)) =
          most + 1 + (e.rules.rules.length - (path.length + 1 + 1)) := by omega
      have one : Leads (AtMost most) (AtMost (most + 1)) (Watched.see (.followed index i)) :=
        .see fun past h before => by simpa [AtMost, Event.isFollowed] using before
      rw [total]
      refine one.bind (fun past h before => before.trans (Nat.le_add_right _ _)) fun _ => ?_
      exact ih fewer (Nat.lt_succ_self _) onward (most + 1)
    · exact fun _ i _ => .see fun past h before => by simpa [AtMost, Event.isFollowed] using before

def NoneLeft (past : List Event) (_ : History) : Prop := ∀ event ∈ past, event.isLeft = false

/-- With enough redirections allowed for the rules that are not on the way, none is left unfollowed: when
no more are allowed, the way has all the rules and cannot go on. -/
theorem watchRule_noneLeft (ending : Ending e.rules.rules) (way : Way e.rules.rules (index :: path))
    (enough : e.rules.rules.length ≤ hops + (path.length + 1)) :
    Keeps NoneLeft (e.watchRule fragment hops index) := by
  have seen {event : Event} (other : event.isLeft = false) (past : List Event) (h : History)
      (before : NoneLeft past h) : NoneLeft (past ++ [event]) h :=
    List.forall_mem_append.mpr ⟨before, by simpa using other⟩
  induction hops using Nat.strong_induction_on generalizing index path with
  | _ hops ih =>
    refine watchRule_leads (fun _ _ before => before)
      (fun r _ p _ => Watched.choose_keeps fun past h x candidate _ before => seen rfl past h before) ?_ ?_
    · rintro i redirects fewer rfl
      have onward := way.extend ending redirects
      refine Keeps.bind (.see (seen rfl)) fun _ => ih fewer (Nat.lt_succ_self _) onward ?_
      rw [List.length_cons]
      omega
    · rintro rfl i redirects
      have room : path.length + 2 ≤ e.rules.rules.length :=
        (way.extend ending redirects).length_le ending
      omega

/-- If so many redirections are allowed as there are other rules, none is ever left. -/
theorem events_noneLeft (ending : Ending e.rules.rules)
    (enough : e.rules.rules.length ≤ e.options.hopLimit + 1)
    (inside : e.fallback < e.rules.rules.length) (calls : List Call) {c : Conversation} :
    NoneLeft (e.events c calls) (e.after c calls).session.history := by
  refine events_keep (fun _ _ inside => watchRule_noneLeft ending (.start inside) enough) inside
    (fun past h before => ?_) calls [] (by simp [NoneLeft])
  exact List.forall_mem_append.mpr ⟨before, by simp [Event.isLeft]⟩

/-! Two limits that both suffice. -/

/-- The engine with another limit for redirections. -/
def limited (e : Engine) (limit : Nat) : Engine :=
  { e with options := { e.options with hopLimit := limit } }

theorem tryDecompositions_limited {limit depth depth' : Nat}
    {hop hop' : Option (Nat → Turn (Option String))} {ds : List (Rules.Decomposition × Nat)}
    (same : ∀ p ∈ ds, ∀ target i, .redirect target (some i) ∈ p.1.reassemblies →
      ∃ follow follow', hop = some follow ∧ hop' = some follow' ∧ follow i = follow' i) :
    (e.limited limit).tryDecompositions r index depth' hop' fragment ds =
      e.tryDecompositions r index depth hop fragment ds := by
  induction ds with
  | nil => rfl
  | cons p rest ih =>
    obtain ⟨d, position⟩ := p
    have later := ih fun p member => same p (List.mem_cons_of_mem _ member)
    rw [tryDecompositions, tryDecompositions]
    cases d.match? fragment with
    | none => exact later
    | some m =>
      refine bind_congr fun choice => ?_
      cases found : d.reassemblies[choice.toNat]? with
      | none => rfl
      | some chosen =>
        have member := List.mem_of_getElem? found
        refine bind_congr fun _ => ?_
        cases chosen with
        | literal template =>
          refine bind_congr fun reply => ?_
          split
          · exact bind_congr fun _ => later
          · rfl
        | redirect target place =>
          cases place with
          | none => exact bind_congr fun _ => later
          | some i =>
            obtain ⟨follow, follow', rfl, rfl, agree⟩ :=
              same (d, position) List.mem_cons_self target i member
            exact agree.symm

/-- Two limits give the same outcome of a rule if both are enough for the rules that are not on the way,
as neither is used up while the way goes on. -/
theorem runRule_limited {limit hops' : Nat} (ending : Ending e.rules.rules)
    (way : Way e.rules.rules (index :: path))
    (enough : e.rules.rules.length ≤ hops + (path.length + 1))
    (enough' : e.rules.rules.length ≤ hops' + (path.length + 1)) :
    (e.limited limit).runRule fragment hops' index = e.runRule fragment hops index := by
  induction hops using Nat.strong_induction_on generalizing hops' index path with
  | _ hops ih =>
    rw [runRule_eq, runRule_eq]
    change (match e.rules.rules[index]? with | none => _ | some r => _) = _
    split
    · rfl
    · next r found =>
      refine tryDecompositions_limited fun p member target i reassembly => ?_
      have onward := way.extend ending (redirects_of_mem found member reassembly)
      have room : path.length + 2 ≤ e.rules.rules.length := onward.length_le ending
      obtain ⟨fewer, rfl⟩ : ∃ n, hops = n + 1 := ⟨hops - 1, by omega⟩
      obtain ⟨fewer', rfl⟩ : ∃ n, hops' = n + 1 := ⟨hops' - 1, by omega⟩
      refine ⟨_, _, rfl, rfl, (ih fewer (Nat.lt_succ_self _) onward ?_ ?_).symm⟩
      · rw [List.length_cons]
        omega
      · rw [List.length_cons]
        omega

section

variable {limit : Nat} (ending : Ending e.rules.rules)
  (enough : e.rules.rules.length ≤ e.options.hopLimit + 1) (enough' : e.rules.rules.length ≤ limit + 1)
include ending enough enough'

theorem answerBy_limited (inside : index < e.rules.rules.length) :
    (e.limited limit).answerBy fragment index = e.answerBy fragment index :=
  runRule_limited ending (.start inside) enough enough'

theorem tryRules_limited {rs : List (Rules.Rule × Nat)}
    (inside : ∀ p ∈ rs, p.2 < e.rules.rules.length) :
    (e.limited limit).tryRules fragment rs = e.tryRules fragment rs := by
  induction rs with
  | nil => rfl
  | cons p rest ih =>
    obtain ⟨r, index⟩ := p
    have later := ih fun p member => inside p (List.mem_cons_of_mem _ member)
    rw [tryRules, tryRules, later,
      answerBy_limited ending enough enough' (inside (r, index) List.mem_cons_self)]

theorem tryFragments_limited (fragments : List String) :
    (e.limited limit).tryFragments fragments = e.tryFragments fragments := by
  induction fragments with
  | nil => rfl
  | cons fragment rest ih =>
    have rules (fragment : List Char) : (e.limited limit).tryRules fragment e.rules.rules.zipIdx =
        e.tryRules fragment e.rules.rules.zipIdx :=
      tryRules_limited ending enough enough' fun p => List.snd_lt_of_mem_zipIdx
    rw [tryFragments, tryFragments, ih, ← rules]
    rfl

theorem fallBack_limited (inside : e.fallback < e.rules.rules.length) :
    (e.limited limit).fallBack = e.fallBack := by
  have rule : (e.limited limit).answerBy [' '] e.fallback = e.answerBy [' '] e.fallback :=
    answerBy_limited ending enough enough' inside
  rw [fallBack, fallBack, ← rule]
  rfl

theorem reply_limited (inside : e.fallback < e.rules.rules.length) (input : String) :
    (e.limited limit).reply input = e.reply input := by
  rw [reply, reply, tryFragments_limited ending enough enough',
    fallBack_limited ending enough enough' inside]
  refine bind_congr fun _ => bind_congr fun outcome => ?_
  cases outcome <;> rfl

/-- Limits that suffice for all rules but one make no difference. -/
theorem answer_limited (inside : e.fallback < e.rules.rules.length) (call : Call) :
    (e.limited limit).answer call = e.answer call := by
  cases call with
  | reply input => rw [answer, answer, reply_limited ending enough enough' inside]
  | greet => rfl
  | bidFarewell => rfl
  | reset => rfl
  | reseed seed => rfl

end

/-- Engines that answer every call alike answer all calls alike, one after the other. -/
theorem answers_congr {e e' : Engine} (same : ∀ call, e'.answer call = e.answer call)
    (calls : List Call) (c : Conversation) :
    e'.answers c calls = e.answers c calls ∧ e'.after c calls = e.after c calls := by
  induction calls generalizing c with
  | nil => simp [answers]
  | cons call rest ih =>
    obtain ⟨answered, left⟩ := ih ((e.answer call).apply c).2
    constructor
    · rw [answers, answers, same, answered]
    · rw [after_cons, after_cons, same, left]

end Engine

theorem EngineSettings.check_ok {settings : EngineSettings} {o : Options}
    (accepted : settings.check = .ok o) : ∃ capacity limit : Nat,
      settings.capacity = .int capacity ∧ settings.hopLimit = .int (limit + 1) ∧
      o = ⟨settings.capitalize.isTruthy, capacity, limit + 1, settings.debug.isTruthy⟩ := by
  rw [check] at accepted
  split at accepted
  · next n held =>
    obtain ⟨_, kept, accepted⟩ := bind_eq_ok.mp accepted
    cases kept
    split at accepted
    · next k bounded =>
      cases accepted
      exact ⟨n, k, held, bounded, rfl⟩
    · obtain ⟨_, refused, _⟩ := bind_eq_ok.mp accepted
      contradiction
  · obtain ⟨_, refused, _⟩ := bind_eq_ok.mp accepted
    contradiction

/-- Settings that differ in the limit for redirections are accepted as options that do. -/
theorem EngineSettings.check_hopLimit {settings : EngineSettings} {first second : Data}
    {o o' : Options} (accepted : { settings with hopLimit := first }.check = .ok o)
    (accepted' : { settings with hopLimit := second }.check = .ok o') :
    o' = { o with hopLimit := o'.hopLimit } := by
  obtain ⟨_, _, held, _, rfl⟩ := check_ok accepted
  obtain ⟨_, _, held', _, rfl⟩ := check_ok accepted'
  cases held.symm.trans held'
  rfl

/-- With rules that can be made ready, a rule that is run follows fewer redirections than there are
rules, whatever the limit; a redirection is never left under a limit that allows for all rules but
one; and two such limits lead to the same conversations. -/
theorem redirections_end (entries : List Script.Entry) (tables : Script) (s : RuleSet)
    (made : (Rules.compileSet entries tables).outcome = .ok s) :
    (∀ e : Engine, e.rules = s → ∀ fragment hops index c, index < s.rules.length →
      (e.watchRule fragment hops index).step = e.runRule fragment hops index ∧
      ((e.watchRule fragment hops index).events c).countP Event.isFollowed ≤ s.rules.length - 1) ∧
    ∀ (source : RandomSource) (settings : EngineSettings) (first second : Data) (o o' : Options),
      { settings with hopLimit := first }.check = .ok o →
      { settings with hopLimit := second }.check = .ok o' →
      max 1 (s.rules.length - 1) ≤ o.hopLimit → max 1 (s.rules.length - 1) ≤ o'.hopLimit →
      ∃ e e' c, Engine.start s (.source source) { settings with hopLimit := first } = .ok (e, c) ∧
        Engine.start s (.source source) { settings with hopLimit := second } = .ok (e', c) ∧
        e.rules = s ∧ e'.rules = s ∧
        ∀ calls, e'.answers c calls = e.answers c calls ∧ e'.after c calls = e.after c calls ∧
          ∀ event ∈ e.events c calls, event.isLeft = false := by
  obtain ⟨⟨written, _, ready⟩, _, _⟩ := Rules.compileSet_ok made
  have ending := ready.ending
  obtain ⟨_, i, r, found, at_i, _⟩ := ready.fallback
  have inside : i < s.rules.length := (List.getElem?_eq_some_iff.mp at_i).1
  constructor
  · rintro e rfl fragment hops index c inside
    refine ⟨Engine.watchRule_step hops index, ?_⟩
    have leads : Watched.Leads (Engine.AtMost 0) _ (e.watchRule fragment hops index) :=
      Engine.watchRule_atMost ending (.start inside) 0
    simpa [Engine.AtMost] using leads [] c (Nat.le_refl 0)
  · intro source settings first second o o' accepted accepted' enough enough'
    have room : s.rules.length ≤ o.hopLimit + 1 := by omega
    have room' : s.rules.length ≤ o'.hopLimit + 1 := by omega
    have started' := Rules.start_eq_ok found accepted' source
    rw [EngineSettings.check_hopLimit accepted accepted'] at started'
    refine ⟨⟨s, i, o⟩, _, _, Rules.start_eq_ok found accepted source, started', rfl, rfl,
      fun calls => ?_⟩
    have same := Engine.answers_congr
      (Engine.answer_limited (e := ⟨s, i, o⟩) ending room room' inside) calls
    exact ⟨(same _).1, (same _).2, Engine.events_noneLeft ending room inside calls⟩

/-- Three rules of which each but the last redirects to the next. -/
def errand : List Script.Entry :=
  [.rule ⟨"ask", 2, [⟨"* ask *", ["goto tell"]⟩]⟩, .rule ⟨"tell", 1, [⟨"*", ["goto xnone"]⟩]⟩,
    .rule ⟨Rules.fallbackKeyword, 0, [⟨"*", ["Go on."]⟩]⟩]

theorem errand_ends : ∃ s, (Rules.compileSet errand .empty).outcome = .ok s ∧
    s.rules.length = 3 ∧
    ∃ e e' c, Engine.start s (.source halves) { EngineSettings.default with hopLimit := .int 2 } =
        .ok (e, c) ∧
      Engine.start s (.source halves) { EngineSettings.default with hopLimit := .int 9 } =
        .ok (e', c) ∧
      ((e.watchRule "do ask me".toList 2 0).events c).countP Event.isFollowed ≤ 2 ∧
      e'.answers c [.reply "Do ask me.", .reset] = e.answers c [.reply "Do ask me.", .reset] ∧
      ∀ event ∈ e.events c [.reply "Do ask me.", .reset], event.isLeft = false := by
  have checked : (Rules.compileSet errand .empty).outcome.toOption.any
      fun s => s.rules.length == 3 := by decide +kernel
  obtain ⟨s, made, three⟩ := exists_of_any checked
  have three : s.rules.length = 3 := beq_iff_eq.mp three
  obtain ⟨followed, limits⟩ := redirections_end errand .empty s made
  obtain ⟨e, e', c, started, started', rules, _, same⟩ := limits halves .default (.int 2) (.int 9)
    ⟨true, 20, 2, false⟩ ⟨true, 20, 9, false⟩ rfl rfl (by simp [three]) (by simp [three])
  obtain ⟨answered, _, untouched⟩ := same [.reply "Do ask me.", .reset]
  obtain ⟨_, most⟩ := followed e rules "do ask me".toList 2 0 c (by simp [three])
  rw [three] at most
  exact ⟨s, made, three, e, e', c, started, started', most, answered, untouched⟩

end Colloquy
