import Colloquy.Proofs.Conversation.Answer

/-! Conversations that are watched. The steps are those of the conversation itself, which is proved
of every one of them; beside each stands what is seen of it: the choices it makes, the redirections it
follows or leaves, and the starts of a new history. -/

namespace Colloquy

/-- A choice of a reassembly: for which decomposition, what was drawn, out of how many, and which was
taken. -/
structure Choice where
  slot : Slot
  candidate : Int
  count : Nat
  index : Int
deriving DecidableEq

/-- What is seen of a conversation. A redirection is left when there have been too many. -/
inductive Event where
  | chose (choice : Choice)
  | followed (source target : Nat)
  | left (source target : Nat)
  | restarted
deriving DecidableEq

/-- A step of a conversation with what is seen of it, which depends on where it begins. -/
structure Watched (α : Type) where
  step : Turn α
  events : Conversation → List Event

namespace Watched

variable {α β : Type}

/-- One step after another. After a failure nothing more is seen. -/
protected def bind (w : Watched α) (f : α → Watched β) : Watched β where
  step := w.step >>= fun a => (f a).step
  events c := w.events c ++
    match w.step.apply c with
    | (.ok a, c') => (f a).events c'
    | (.error _, _) => []

def quiet (t : Turn α) : Watched α := ⟨t, fun _ => []⟩

instance : Monad Watched where
  pure a := quiet (pure a)
  bind := Watched.bind

def see (event : Event) : Watched Unit := ⟨pure (), fun _ => [event]⟩

def choose (slot : Slot) (count : Nat) : Watched Int where
  step := Turn.choose slot count
  events c :=
    match pickIndex c.source.next.1 count with
    | .ok candidate =>
      [.chose ⟨slot, candidate, count, (c.session.history.choose slot candidate count).1⟩]
    | .error _ => []

@[simp] theorem step_pure (a : α) : (pure a : Watched α).step = pure a := rfl

@[simp] theorem step_bind (w : Watched α) (f : α → Watched β) :
    (w >>= f).step = w.step >>= fun a => (f a).step := rfl

@[simp] theorem step_quiet (t : Turn α) : (quiet t).step = t := rfl

@[simp] theorem step_see (event : Event) : (see event).step = pure () := rfl

@[simp] theorem step_choose (slot : Slot) (count : Nat) :
    (choose slot count).step = Turn.choose slot count := rfl

theorem events_bind (w : Watched α) (f : α → Watched β) (c : Conversation) :
    (w >>= f).events c = w.events c ++
      match w.step.apply c with
      | (.ok a, c') => (f a).events c'
      | (.error _, _) => [] := rfl

end Watched

namespace Engine

variable (e : Engine) (fragment : List Char)

def watchDecompositions (r : Rules.Rule) (index depth : Nat)
    (hop : Option (Nat → Watched (Option String))) :
    List (Rules.Decomposition × Nat) → Watched (Option String)
  | [] => return none
  | (d, position) :: rest => do
    match d.match? fragment with
    | none => watchDecompositions r index depth hop rest
    | some m =>
      let choice ← Watched.choose (index, position) d.reassemblies.length
      match d.reassemblies[choice.toNat]? with
      | none => Watched.quiet (Turn.breakDown .outOfRange)
      | some chosen =>
        Watched.quiet (e.noteChoice r d chosen)
        match chosen with
        | .redirect target none =>
          Watched.quiet
            (Turn.note .debug "goto target not found" [("target", .data (.text target))])
          watchDecompositions r index depth hop rest
        | .redirect _ (some target) =>
          match hop with
          | some follow =>
            Watched.see (.followed index target)
            follow target
          | none =>
            Watched.see (.left index target)
            Watched.quiet (Turn.note .warning "goto depth limit reached"
              [("keyword", .data (.text r.keyword)), ("depth", .data (.int depth))])
            watchDecompositions r index depth hop rest
        | .literal template =>
          let reply ← Watched.quiet (e.assemble d m template)
          if d.kept then
            Watched.quiet (Turn.remember reply)
            watchDecompositions r index depth hop rest
          else return some reply

def watchRule : (hops : Nat) → (index : Nat) → Watched (Option String)
  | 0, index =>
    match e.rules.rules[index]? with
    | none => Watched.quiet (Turn.breakDown .outOfRange)
    | some r =>
      e.watchDecompositions fragment r index e.options.hopLimit none r.decompositions.zipIdx
  | hops + 1, index =>
    match e.rules.rules[index]? with
    | none => Watched.quiet (Turn.breakDown .outOfRange)
    | some r =>
      e.watchDecompositions fragment r index (e.options.hopLimit - (hops + 1))
        (some fun target => watchRule hops target) r.decompositions.zipIdx

def watchRules : List (Rules.Rule × Nat) → Watched (Option String)
  | [] => return none
  | (r, index) :: rest =>
    if r.appliesTo fragment then do
      match ← e.watchRule fragment e.options.hopLimit index with
      | some reply => return some reply
      | none => watchRules rest
    else watchRules rest

def watchFragments : List String → Watched Outcome
  | [] => return .nothing
  | fragment :: rest =>
    if e.rules.quits.contains fragment then return .farewell
    else do
      match ← e.watchRules (e.rules.pres.applyTo fragment.toList) e.rules.rules.zipIdx with
      | some reply => return .reply reply
      | none => watchFragments rest

def watchFallBack : Watched String := do
  match ← Watched.quiet Turn.fetchKept? with
  | some reply =>
    let remaining := (← Watched.quiet get).session.memory.size
    Watched.quiet
      (Turn.note .debug "Replying from memory" [("remaining", .data (.int remaining))])
    Watched.quiet (e.finish reply)
  | none =>
    match ← e.watchRule [' '] e.options.hopLimit e.fallback with
    | some reply => Watched.quiet (e.finish reply)
    | none => return lossForWords

def watchReply (input : String) : Watched String := do
  Watched.quiet (Turn.changeSession fun s => { s with quit := false })
  match ← e.watchFragments (Fragment.split input) with
  | .farewell =>
    Watched.quiet (Turn.changeSession fun s => { s with quit := true })
    Watched.quiet e.bidFarewell
  | .reply text => Watched.quiet (e.finish text)
  | .nothing => e.watchFallBack

/-- What a call is answered, if it asks for anything. -/
def answer : Call → Turn (Option String)
  | .reply input => do return some (← e.reply input)
  | .greet => do return some (← e.greet)
  | .bidFarewell => do return some (← e.bidFarewell)
  | .reset => do
    e.reset
    return none
  | .reseed seed => do
    e.reseed seed
    return none

/-- `answer`, watched. A new seed starts the history anew unless it is refused. -/
def watch : Call → Watched (Option String)
  | .reply input => do return some (← e.watchReply input)
  | .greet => do return some (← Watched.quiet e.greet)
  | .bidFarewell => do return some (← Watched.quiet e.bidFarewell)
  | .reset => do
    Watched.quiet e.reset
    Watched.see .restarted
    return none
  | .reseed seed => do
    Watched.quiet (e.reseed seed)
    Watched.see .restarted
    return none

def answers (c : Conversation) : List Call → List (Except Failure (Option String))
  | [] => []
  | call :: rest => ((e.answer call).apply c).1 :: answers ((e.answer call).apply c).2 rest

/-- What is seen while calls are answered, one after the other. -/
def events (c : Conversation) : List Call → List Event
  | [] => []
  | call :: rest => (e.watch call).events c ++ events ((e.answer call).apply c).2 rest

/-! The watched steps are the steps themselves. -/

variable {e fragment}

theorem watchDecompositions_step (r : Rules.Rule) (index depth : Nat)
    (hop : Option (Nat → Watched (Option String))) (ds : List (Rules.Decomposition × Nat)) :
    (e.watchDecompositions fragment r index depth hop ds).step =
      e.tryDecompositions r index depth (hop.map fun follow target => (follow target).step)
        fragment ds := by
  induction ds with
  | nil => rfl
  | cons p rest ih =>
    obtain ⟨d, position⟩ := p
    rw [watchDecompositions, tryDecompositions]
    cases d.match? fragment with
    | none => exact ih
    | some m =>
      refine bind_congr fun choice => ?_
      beta_reduce
      cases d.reassemblies[choice.toNat]? with
      | none => rfl
      | some chosen =>
        refine bind_congr fun _ => ?_
        cases chosen with
        | literal template =>
          refine bind_congr fun reply => ?_
          beta_reduce
          cases d.kept with
          | true => exact bind_congr fun _ => ih
          | false => rfl
        | redirect target place =>
          cases place with
          | none => exact bind_congr fun _ => ih
          | some target =>
            cases hop with
            | none => exact (pure_bind () _).trans (bind_congr fun _ => ih)
            | some follow => rfl

/-- To watch a rule changes nothing of what it does. -/
theorem watchRule_step (hops index : Nat) :
    (e.watchRule fragment hops index).step = e.runRule fragment hops index := by
  induction hops generalizing index with
  | zero =>
    rw [watchRule, runRule]
    cases e.rules.rules[index]? with
    | none => rfl
    | some r => exact watchDecompositions_step r index _ none _
  | succ hops ih =>
    rw [watchRule, runRule]
    cases e.rules.rules[index]? with
    | none => rfl
    | some r =>
      rw [← funext ih]
      exact watchDecompositions_step r index _ (some _) _

theorem watchRules_step (rs : List (Rules.Rule × Nat)) :
    (e.watchRules fragment rs).step = e.tryRules fragment rs := by
  induction rs with
  | nil => rfl
  | cons p rest ih =>
    obtain ⟨r, index⟩ := p
    rw [watchRules, tryRules]
    cases r.appliesTo fragment with
    | false => exact ih
    | true =>
      rw [if_pos rfl, if_pos rfl, answerBy, ← watchRule_step]
      refine bind_congr fun reply => ?_
      cases reply with
      | none => exact ih
      | some reply => rfl

theorem watchFragments_step (fragments : List String) :
    (e.watchFragments fragments).step = e.tryFragments fragments := by
  induction fragments with
  | nil => rfl
  | cons fragment rest ih =>
    rw [watchFragments, tryFragments]
    cases e.rules.quits.contains fragment with
    | true => rfl
    | false =>
      rw [← watchRules_step]
      refine bind_congr fun reply => ?_
      cases reply with
      | none => exact ih
      | some reply => rfl

theorem watchFallBack_step : e.watchFallBack.step = e.fallBack := by
  rw [watchFallBack, fallBack]
  refine bind_congr fun kept => ?_
  cases kept with
  | some reply => rfl
  | none =>
    rw [answerBy, ← watchRule_step]
    refine bind_congr fun reply => ?_
    cases reply <;> rfl

theorem watchReply_step (input : String) : (e.watchReply input).step = e.reply input := by
  rw [watchReply, reply, ← watchFragments_step, ← watchFallBack_step]
  refine bind_congr fun _ => bind_congr fun outcome => ?_
  cases outcome <;> rfl

/-- What is watched is what happens. -/
theorem watch_step (call : Call) : (e.watch call).step = e.answer call := by
  cases call with
  | reply input =>
    rw [answer, ← watchReply_step]
    rfl
  | greet => rfl
  | bidFarewell => rfl
  | reset => rfl
  | reseed seed => rfl

/-- A call leaves the same behind whether its answer is asked for or not. -/
theorem perform_apply (call : Call) (c : Conversation) :
    ((e.perform call).apply c).2 = ((e.answer call).apply c).2 := by
  cases call with
  | reply input =>
    simp only [perform, answer, Turn.apply_bind]
    rcases (e.reply input).apply c with ⟨_ | _, _⟩ <;> rfl
  | greet =>
    simp only [perform, answer, Turn.apply_bind]
    rcases e.greet.apply c with ⟨_ | _, _⟩ <;> rfl
  | bidFarewell =>
    simp only [perform, answer, Turn.apply_bind]
    rcases e.bidFarewell.apply c with ⟨_ | _, _⟩ <;> rfl
  | reset =>
    simp only [perform, answer, Turn.apply_bind]
    rcases e.reset.apply c with ⟨_ | _, _⟩ <;> rfl
  | reseed seed =>
    simp only [perform, answer, Turn.apply_bind]
    rcases (e.reseed seed).apply c with ⟨_ | _, _⟩ <;> rfl

@[simp] theorem after_nil (c : Conversation) : e.after c [] = c := rfl

theorem after_cons (c : Conversation) (call : Call) (rest : List Call) :
    e.after c (call :: rest) = e.after ((e.answer call).apply c).2 rest := by
  rw [after, List.foldl_cons, perform_apply, after]

end Engine
end Colloquy
