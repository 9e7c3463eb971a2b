import Colloquy.Proofs.Conversation.Agenda
import Colloquy.Proofs.Conversation.Hops

/-! The memory of a conversation as it is asked by its rules and calls, request by request. Whatever it
is asked, it never grows beyond its size, and no kept reply is given twice. -/

namespace Colloquy

/-! Requests one after the other. -/

namespace Memory

variable {m : Memory}

@[simp] theorem after_nil (m : Memory) : m.after [] = m := rfl

theorem after_append (m : Memory) (first others : List Request) :
    m.after (first ++ others) = (m.after first).after others := List.foldl_append

theorem answers_append (first others : List Request) :
    m.answers (first ++ others) = m.answers first ++ (m.after first).answers others := by
  induction first generalizing m with
  | nil => rfl
  | cons request rest ih =>
    rw [List.cons_append, answers, answers, ih, List.append_assoc]
    rfl

theorem answers_saves (replies : List String) : m.answers (replies.map .save) = [] := by
  induction replies generalizing m with
  | nil => rfl
  | cons reply rest ih => exact ih

theorem after_capacity (requests : List Request) : (m.after requests).capacity = m.capacity := by
  induction requests generalizing m with
  | nil => rfl
  | cons request rest ih => exact ih.trans (serve_capacity m request)

end Memory

namespace Engine

open Turn Memory

section

variable (e : Engine) (fragment : List Char)

/-- The replies that are kept while decompositions are tried, in order. `further` has those that are
kept after a redirection. -/
def keptTrying (r : Rules.Rule) (index depth : Nat) (hops : Bool)
    (further : Nat → Conversation → List String) :
    List (Rules.Decomposition × Nat) → Conversation → List String
  | [], _ => []
  | p :: rest, c =>
    match (e.attempt r index depth hops fragment p).apply c with
    | (.ok .nothing, c') => keptTrying r index depth hops further rest c'
    | (.ok (.kept reply), c') => reply :: keptTrying r index depth hops further rest c'
    | (.ok (.redirected target), c') => further target c'
    | (.ok (.answered _), _) | (.error _, _) => []

/-- The replies that are kept while a rule is run, with so many redirections left. -/
def keptBy : (hops index : Nat) → Conversation → List String
  | 0, index, c =>
    match e.rules.rules[index]? with
    | none => []
    | some r =>
      e.keptTrying fragment r index e.options.hopLimit false (fun _ _ => []) r.decompositions.zipIdx c
  | hops + 1, index, c =>
    match e.rules.rules[index]? with
    | none => []
    | some r =>
      e.keptTrying fragment r index (e.options.hopLimit - (hops + 1)) true
        (fun target c => keptBy hops target c) r.decompositions.zipIdx c

end

section

variable (e : Engine) (c : Conversation)

/-- The replies that are kept while tasks are run until one of them replies. -/
def keptOn : List Task → Conversation → List String
  | [], _ => []
  | (fragment, index) :: rest, c =>
    e.keptBy fragment e.options.hopLimit index c ++
      match (e.answerBy fragment index).apply c with
      | (.ok none, c') => keptOn rest c'
      | _ => []

/-- The conversation in which the memory is looked at, if no fragment of an input leads to anything. -/
def consulted? (input : String) : Option Conversation :=
  match (e.pursue (e.agenda (Fragment.split input))).apply c.resumed with
  | (.ok none, c') => if (Fragment.split input).any e.isFarewell then none else some c'
  | _ => none

/-- What the memory is asked when it is looked at. No number is drawn from an empty one, and the
fallback rule may keep replies then. -/
def fallBackRequests (c : Conversation) : List Request :=
  .take c.source.next.1 ::
    if c.session.memory.items = [] then
      (e.keptBy [' '] e.options.hopLimit e.fallback c).map .save
    else []

/-- What the memory is asked by a call. -/
def requests : Call → List Request
  | .reply input =>
    (e.keptOn (e.agenda (Fragment.split input)) c.resumed).map .save ++
      (e.consulted? c input).elim [] e.fallBackRequests
  | .greet | .bidFarewell => []
  | .reset => [.clear]
  | .reseed seed =>
    match ((e.reseed seed).apply c).1 with
    | .ok () => [.clear]
    | .error _ => []

def recalled : Call → Option String
  | .reply input =>
    (e.consulted? c input).bind fun c' => ((fetchKept?.apply c').1.toOption).join
  | _ => none

end

def allRequests (e : Engine) (c : Conversation) : List Call → List Request
  | [] => []
  | call :: rest => e.requests c call ++ e.allRequests ((e.answer call).apply c).2 rest

/-- The kept replies that are given to calls, one after the other. -/
def allRecalled (e : Engine) (c : Conversation) : List Call → List String
  | [] => []
  | call :: rest => (e.recalled c call).toList ++ e.allRecalled ((e.answer call).apply c).2 rest

variable {e : Engine} {c : Conversation} {r : Rules.Rule} {d : Rules.Decomposition}
  {index depth : Nat} {hops : Bool} {fragment : List Char}

/-! What rules do to the memory. -/

theorem steady_memory (m : Memory) : Conversation.Steady fun c => c.session.memory = m where
  draw _ same := same
  choice _ _ same := same
  record _ _ same := same

@[simp] theorem resumed_memory (c : Conversation) : c.resumed.session.memory = c.session.memory := rfl

theorem assemble_apply (m : Regex.Match) (template : String) (c : Conversation) :
    ∃ result, (e.assemble d m template).apply c = (result, c) := by
  rw [assemble]
  split
  · exact ⟨_, rfl⟩
  · exact ⟨_, rfl⟩

theorem remember_apply (reply : String) (room : 0 ≤ c.session.memory.capacity) :
    ∃ records, (remember reply).apply c =
      (.ok (), { c with
        session := { c.session with memory := c.session.memory.save reply }, records }) := by
  have saves : (c.session.memory.save reply).canSave = true := decide_eq_true room
  simp only [remember, apply_bind, apply_changeSession, apply_get, saves]
  exact ⟨_, rfl⟩

/-- The replies that a decomposition keeps, given what it comes to. -/
def keptOf : Except Failure Upshot → List String
  | .ok (.kept reply) => [reply]
  | _ => []

/-- The memory after a chosen reassembly: a reply that is kept has been saved, and nothing else. -/
theorem carryOut_memory (m : Regex.Match) (chosen : Reassembly)
    (room : 0 ≤ c.session.memory.capacity) {result : Except Failure Upshot} {c' : Conversation}
    (carried : (e.carryOut r depth hops d m chosen).apply c = (result, c')) :
    c'.session.memory = c.session.memory.after ((keptOf result).map .save) := by
  rcases chosen with template | ⟨target, _ | i⟩
  · obtain ⟨reply, assembled⟩ := assemble_apply (e := e) (d := d) m template c
    rw [carryOut, apply_bind, assembled] at carried
    cases reply with
    | error f =>
      cases carried
      rfl
    | ok reply =>
      cases kept : d.kept with
      | false =>
        simp only [kept, Bool.false_eq_true, if_false] at carried
        cases carried
        rfl
      | true =>
        obtain ⟨records, remembered⟩ := remember_apply reply room
        simp only [kept, if_true, apply_bind, remembered] at carried
        cases carried
        rfl
  · cases carried
    rfl
  · cases hops with
    | false =>
      cases carried
      rfl
    | true =>
      cases carried
      rfl

theorem attempt_memory (p : Rules.Decomposition × Nat) (room : 0 ≤ c.session.memory.capacity)
    {result : Except Failure Upshot} {c' : Conversation}
    (tried : (e.attempt r index depth hops fragment p).apply c = (result, c')) :
    c'.session.memory = c.session.memory.after ((keptOf result).map .save) := by
  rw [attempt] at tried
  cases matched : p.1.match? fragment with
  | none =>
    rw [matched] at tried
    cases tried
    rfl
  | some m =>
    have quiet : Keeps (·.session.memory = c.session.memory) (e.draw r index p) :=
      keeps_draw (steady_memory _) p
    have same := (quiet c rfl).1
    rw [matched, apply_bind] at tried
    rcases drawn : (e.draw r index p).apply c with ⟨f | chosen, c₁⟩
    · rw [drawn] at same tried
      cases tried
      exact same
    · rw [drawn] at same tried
      have carried := carryOut_memory m chosen (same.symm ▸ room) tried
      rwa [same] at carried

/-- A rule does nothing to the memory but keep replies, if its redirections do nothing else. The capacity
stays as it is, so that what is tried next can be kept as well. -/
theorem tryDecompositions_memory {hop : Option (Nat → Turn (Option String))}
    {further : Nat → Conversation → List String}
    (follows : ∀ target c, 0 ≤ c.session.memory.capacity →
      ((hop.elim (return none) fun follow => follow target).apply c).2.session.memory =
        c.session.memory.after ((further target c).map .save))
    (ds : List (Rules.Decomposition × Nat)) (room : 0 ≤ c.session.memory.capacity) :
    ((e.tryDecompositions r index depth hop fragment ds).apply c).2.session.memory =
      c.session.memory.after
        ((e.keptTrying fragment r index depth hop.isSome further ds c).map .save) := by
  induction ds generalizing c with
  | nil => rfl
  | cons p rest ih =>
    rw [tryDecompositions_cons, apply_bind, keptTrying]
    rcases attempted : (e.attempt r index depth hop.isSome fragment p).apply c with ⟨f | upshot, c'⟩
    · have kept := attempt_memory p room attempted
      exact kept
    · have kept := attempt_memory p room attempted
      have still : 0 ≤ c'.session.memory.capacity := by rwa [kept, after_capacity]
      cases upshot with
      | nothing => exact (ih still).trans (congrArg (Memory.after · _) kept)
      | kept reply => exact (ih still).trans (congrArg (Memory.after · _) kept)
      | answered reply => exact kept
      | redirected target => exact (follows target c' still).trans (congrArg (Memory.after · _) kept)

/-- The memory after the run of a rule is that after the savings of what it keeps. -/
theorem runRule_memory (hops index : Nat) (room : 0 ≤ c.session.memory.capacity) :
    ((e.runRule fragment hops index).apply c).2.session.memory =
      c.session.memory.after ((e.keptBy fragment hops index c).map .save) := by
  induction hops generalizing index c with
  | zero =>
    rw [runRule, keptBy]
    cases e.rules.rules[index]? with
    | none => rfl
    | some r => exact tryDecompositions_memory (fun _ _ _ => rfl) _ room
  | succ hops ih =>
    rw [runRule, keptBy]
    cases e.rules.rules[index]? with
    | none => rfl
    | some r =>
      refine tryDecompositions_memory (fun target c still => ?_) _ room
      exact ih target still

theorem answerBy_memory (fragment : List Char) (index : Nat) (room : 0 ≤ c.session.memory.capacity) :
    ((e.answerBy fragment index).apply c).2.session.memory =
      c.session.memory.after ((e.keptBy fragment e.options.hopLimit index c).map .save) := by
  rw [answerBy]
  exact runRule_memory e.options.hopLimit index room

theorem pursue_memory (tasks : List Task) (room : 0 ≤ c.session.memory.capacity) :
    ((e.pursue tasks).apply c).2.session.memory =
      c.session.memory.after ((e.keptOn tasks c).map .save) := by
  induction tasks generalizing c with
  | nil => rfl
  | cons task rest ih =>
    obtain ⟨fragment, index⟩ := task
    have kept := answerBy_memory (e := e) fragment index room
    rw [pursue, apply_bind, keptOn, List.map_append, after_append, ← kept]
    rcases run : (e.answerBy fragment index).apply c with ⟨f | reply, c'⟩
    · rfl
    · cases reply with
      | some text => rfl
      | none =>
        rw [run] at kept
        exact ih (by rwa [kept, after_capacity])

/-! What calls do to the memory. -/

/-- The memory after a fall back is that after its requests, and what is fetched is what it answers to
them: the first request changes nothing, so that the savings of the fallback rule are left. -/
theorem fallBack_memory (room : 0 ≤ c.session.memory.capacity) :
    (e.fallBack.apply c).2.session.memory = c.session.memory.after (e.fallBackRequests c) ∧
      ((fetchKept?.apply c).1.toOption).join.toList =
        c.session.memory.answers (e.fallBackRequests c) := by
  rw [fallBack, apply_bind, fallBackRequests]
  by_cases empty : c.session.memory.items = []
  · have kept := answerBy_memory (e := e) [' '] e.fallback room
    have asked : c.session.memory.serve (.take c.source.next.1) = (.ok none, c.session.memory) :=
      serve_take_empty empty _
    rw [fetchKept?_empty empty, if_pos empty, Memory.answers, asked, answers_saves]
    refine ⟨?_, rfl⟩
    rw [Memory.after, List.foldl_cons, asked, ← Memory.after, ← kept]
    simp only [apply_bind]
    rcases run : (e.answerBy [' '] e.fallback).apply c with ⟨f | reply, c'⟩
    · rfl
    · cases reply with
      | none => rfl
      | some text => simp only [finish_apply]
  · have some_ := fetchKept?_ne_none empty
    rw [if_neg empty, Memory.answers, Memory.answers, List.append_nil]
    rw [fetchKept?_apply empty] at some_ ⊢
    rw [Memory.after, List.foldl_cons, List.foldl_nil]
    rcases served : c.session.memory.serve (.take c.source.next.1) with ⟨b | reply, m⟩
    · exact ⟨rfl, rfl⟩
    · cases reply with
      | none =>
        rw [served] at some_
        exact absurd rfl some_
      | some text =>
        refine ⟨?_, rfl⟩
        simp only [Except.mapError, apply_bind, apply_get, finish_apply]
        rfl

/-- A reply in terms of the conversation in which the memory is looked at. -/
theorem reply_consulted (input : String) {c' : Conversation}
    (consulted : e.consulted? c input = some c') :
    (e.reply input).apply c = e.fallBack.apply c' ∧
      (e.pursue (e.agenda (Fragment.split input))).apply c.resumed = (.ok none, c') := by
  obtain ⟨pursued, done⟩ : ∃ pursued,
      (e.pursue (e.agenda (Fragment.split input))).apply c.resumed = pursued := ⟨_, rfl⟩
  rw [consulted?, done] at consulted
  rw [reply_apply, done]
  rcases pursued with ⟨f | reply, c₁⟩
  · contradiction
  · cases reply with
    | some text => contradiction
    | none =>
      cases farewell : (Fragment.split input).any e.isFarewell with
      | true => simp [farewell] at consulted
      | false =>
        simp only [farewell, Bool.false_eq_true, if_false, Option.some.injEq] at consulted ⊢
        rw [consulted]
        exact ⟨rfl, rfl⟩

theorem reply_unconsulted (input : String) (unconsulted : e.consulted? c input = none) :
    ((e.reply input).apply c).2.session.memory =
      ((e.pursue (e.agenda (Fragment.split input))).apply c.resumed).2.session.memory := by
  rw [reply_apply]
  rw [consulted?] at unconsulted
  rcases done : (e.pursue (e.agenda (Fragment.split input))).apply c.resumed with ⟨f | reply, c'⟩
  · rfl
  · rw [done] at unconsulted
    cases reply with
    | some text => rfl
    | none =>
      by_cases farewell : (Fragment.split input).any e.isFarewell
      · simp only [farewell, if_true]
        exact (keeps_pickText (steady_memory _) e.rules.finals c'.ended rfl).1
      · simp [farewell] at unconsulted

/-- A call does to the memory what its requests do, and is given what they are answered. -/
theorem answer_memory (call : Call) (room : 0 ≤ c.session.memory.capacity) :
    ((e.answer call).apply c).2.session.memory = c.session.memory.after (e.requests c call) ∧
      (e.recalled c call).toList = c.session.memory.answers (e.requests c call) := by
  rw [← perform_apply]
  have told {t : Turn String} : ((do let _ ← t : Turn Unit).apply c).2 = (t.apply c).2 := by
    rw [apply_bind]
    rcases t.apply c with ⟨_ | _, _⟩ <;> rfl
  cases call with
  | greet =>
    rw [perform, told]
    exact ⟨(keeps_pickText (steady_memory _) e.rules.initials c rfl).1, rfl⟩
  | bidFarewell =>
    rw [perform, told]
    exact ⟨(keeps_pickText (steady_memory _) e.rules.finals c rfl).1, rfl⟩
  | reset => exact ⟨rfl, rfl⟩
  | reseed seed =>
    rw [perform, requests]
    rcases reseed_apply (e := e) seed c with ⟨f, refused⟩ | ⟨source, begun⟩
    · rw [refused]
      exact ⟨rfl, rfl⟩
    · rw [begun]
      exact ⟨rfl, rfl⟩
  | reply input =>
    have pursued := pursue_memory (e := e) (e.agenda (Fragment.split input)) (c := c.resumed) room
    rw [resumed_memory] at pursued
    rw [perform, told, requests, recalled, after_append, answers_append, answers_saves,
      List.nil_append]
    cases consulted : e.consulted? c input with
    | none =>
      rw [Option.elim_none, Memory.after_nil, reply_unconsulted input consulted]
      exact ⟨pursued, rfl⟩
    | some c' =>
      obtain ⟨same, done⟩ := reply_consulted input consulted
      rw [done] at pursued
      rw [same, Option.elim_some, Option.bind_some]
      have still : 0 ≤ c'.session.memory.capacity := by rwa [pursued, after_capacity]
      obtain ⟨asked, given⟩ := fallBack_memory (e := e) still
      rw [pursued] at asked given
      exact ⟨asked, given⟩

/-- Calls one after the other do to the memory what all their requests do, and are given what those are
answered. -/
theorem after_memory (calls : List Call) (room : 0 ≤ c.session.memory.capacity) :
    (e.after c calls).session.memory = c.session.memory.after (e.allRequests c calls) ∧
      e.allRecalled c calls = c.session.memory.answers (e.allRequests c calls) := by
  induction calls generalizing c with
  | nil => exact ⟨rfl, rfl⟩
  | cons call rest ih =>
    obtain ⟨asked, given⟩ := answer_memory (e := e) call room
    have still : 0 ≤ ((e.answer call).apply c).2.session.memory.capacity := by
      rwa [asked, after_capacity]
    obtain ⟨later, others⟩ := ih still
    rw [after_cons, allRequests, allRecalled, after_append, answers_append, later, others, given, asked]
    exact ⟨rfl, rfl⟩

/-- A kept reply that is given is what the input is replied with. -/
theorem reply_recalled {input text : String} (given : e.recalled c (.reply input) = some text) :
    ((e.reply input).apply c).1 = e.polished text := by
  rw [recalled] at given
  obtain ⟨c', consulted, fetched⟩ := Option.bind_eq_some_iff.mp given
  rw [(reply_consulted input consulted).1, fallBack, apply_bind]
  rcases taken : fetchKept?.apply c' with ⟨f | reply, c''⟩
  · rw [taken] at fetched
    cases fetched
  · rw [taken] at fetched
    cases reply with
    | none => cases fetched
    | some text =>
      cases fetched
      simp only [apply_bind, apply_get, finish_apply]
      rfl

end Engine

open Memory (Ledger)

/-- Whatever a memory is asked, every reply that is saved is accounted for. In a conversation the
memory is asked just what rules and calls ask of it, and the kept replies that are given are its
answers, so that none of them is given twice. -/
theorem memory_accounted :
    (∀ capacity requests, Memory.Accounted capacity requests (.ofRequests capacity requests)
      ((Memory.empty capacity).after requests)) ∧
    ∀ entries tables s, (Rules.compileSet entries tables).outcome = .ok s →
      ∀ (source : RandomSource) (settings : EngineSettings) options, settings.check = .ok options →
        ∃ e c, Engine.start s (.source source) settings = .ok (e, c) ∧
          ∀ calls,
            let requests := e.allRequests c calls
            let l := Ledger.ofRequests options.capacity requests
            (e.after c calls).session.memory = (Memory.empty options.capacity).after requests ∧
            (e.after c calls).session.memory.size ≤ options.capacity ∧
            l.replies l.taken = (e.allRecalled c calls).map some ∧ l.taken.Nodup ∧
            ∀ input text, e.recalled (e.after c calls) (.reply input) = some text →
              ((e.reply input).apply (e.after c calls)).1 = e.polished text := by
  refine ⟨Memory.accounted, ?_⟩
  intro entries tables s made source settings options accepted
  obtain ⟨⟨written, _, ready⟩, _, _⟩ := Rules.compileSet_ok made
  obtain ⟨_, i, _, found, _⟩ := ready.fallback
  refine ⟨_, _, Rules.start_eq_ok found accepted source, fun calls => ?_⟩
  obtain ⟨same, given⟩ := Engine.after_memory (e := ⟨s, i, options⟩)
    (c := ⟨source, .start s options.capacity, []⟩) calls (Int.natCast_nonneg _)
  have account := Memory.accounted options.capacity
    (Engine.allRequests ⟨s, i, options⟩ ⟨source, .start s options.capacity, []⟩ calls)
  refine ⟨same, same ▸ account.fits, ?_, account.balanced.taken_nodup,
    fun _ _ given => Engine.reply_recalled given⟩
  rw [given]
  exact account.taken

theorem bickering_accounted : ∃ s e c, (Rules.compileSet Rules.quarrel .empty).outcome = .ok s ∧
    Engine.start s (.source halves) .default = .ok (e, c) ∧
    (e.after c bickering).session.memory.size ≤ 20 ∧
    (Ledger.ofRequests 20 (e.allRequests c bickering)).taken.Nodup := by
  have checked : (Rules.compileSet Rules.quarrel .empty).outcome.toOption.any fun _ => true := by
    decide +kernel
  obtain ⟨s, made, _⟩ := exists_of_any checked
  obtain ⟨e, c, started, accounted⟩ :=
    memory_accounted.2 Rules.quarrel .empty s made halves .default ⟨true, 20, 16, false⟩ rfl
  obtain ⟨_, fits, _, taken, _⟩ := accounted bickering
  exact ⟨s, e, c, made, started, fits, taken⟩

end Colloquy
