import Colloquy.Proofs.Conversation.Keeping

/-! A rule, one decomposition at a time. Each one that is tried comes to nothing, to a reply that is
kept, to a redirection or to a reply. -/

namespace Colloquy

variable {α β : Type}

/-- What a decomposition that is tried comes to. -/
inductive Upshot where
  | nothing
  | kept (reply : String)
  | redirected (target : Nat)
  | answered (reply : String)

namespace Turn

/-- Whether a step keeps what holds of a conversation, also when it fails. -/
abbrev Keeps (holds : Conversation → Prop) (t : Turn α) : Prop :=
  Safe holds t (fun _ => True) fun _ _ => True

variable {holds : Conversation → Prop}

theorem keeps_pure (a : α) : Keeps holds (pure a) := .done trivial

theorem keeps_breakDown (b : Breakdown) : Keeps holds (breakDown b : Turn α) :=
  fun _ before => ⟨before, trivial⟩

theorem Keeps.bind {t : Turn α} {f : α → Turn β} (first : Keeps holds t)
    (next : ∀ a, Keeps holds (f a)) : Keeps holds (t >>= f) :=
  Safe.bind first fun a _ => next a

end Turn

/-- Whether what a rule may do to a conversation without a reply keeps what holds of it: a number is
drawn, a choice is noted in the history, a record is noted. -/
structure Conversation.Steady (holds : Conversation → Prop) : Prop where
  draw : ∀ c, holds c → holds { c with source := c.source.next.2 }
  choice : ∀ c history, holds c → holds { c with session := { c.session with history } }
  record : ∀ c records, holds c → holds { c with records }

/-- Whether all that a rule may do to a conversation keeps what holds of it, the saving of a reply
included. -/
structure Conversation.Lasting (holds : Conversation → Prop) : Prop extends
    Conversation.Steady holds where
  save : ∀ c reply, holds c →
    holds { c with session := { c.session with memory := c.session.memory.save reply } }

namespace Engine

open Turn

variable {e : Engine} {r : Rules.Rule} {d : Rules.Decomposition} {index depth : Nat} {hops : Bool}
  {fragment : List Char} {holds : Conversation → Prop}

def draw (e : Engine) (r : Rules.Rule) (index : Nat) (p : Rules.Decomposition × Nat) :
    Turn Reassembly := do
  let choice ← choose (index, p.2) p.1.reassemblies.length
  match p.1.reassemblies[choice.toNat]? with
  | none => breakDown .outOfRange
  | some chosen =>
    e.noteChoice r p.1 chosen
    return chosen

/-- What a chosen reassembly comes to. `hops` tells whether redirections may still be followed. -/
def carryOut (e : Engine) (r : Rules.Rule) (depth : Nat) (hops : Bool) (d : Rules.Decomposition)
    (m : Regex.Match) : Reassembly → Turn Upshot
  | .redirect target none => do
    note .debug "goto target not found" [("target", .data (.text target))]
    return .nothing
  | .redirect _ (some target) =>
    if hops then return .redirected target
    else do
      note .warning "goto depth limit reached"
        [("keyword", .data (.text r.keyword)), ("depth", .data (.int depth))]
      return .nothing
  | .literal template => do
    let reply ← e.assemble d m template
    if d.kept then
      remember reply
      return .kept reply
    else return .answered reply

def attempt (e : Engine) (r : Rules.Rule) (index depth : Nat) (hops : Bool) (fragment : List Char)
    (p : Rules.Decomposition × Nat) : Turn Upshot :=
  match p.1.match? fragment with
  | none => return .nothing
  | some m => do
    let chosen ← e.draw r index p
    e.carryOut r depth hops p.1 m chosen

/-- The decompositions of a rule are tried one by one until a redirection or a reply. -/
theorem tryDecompositions_cons (hop : Option (Nat → Turn (Option String)))
    (p : Rules.Decomposition × Nat) (rest : List (Rules.Decomposition × Nat)) :
    e.tryDecompositions r index depth hop fragment (p :: rest) = do
      match ← e.attempt r index depth hop.isSome fragment p with
      | .nothing | .kept _ => e.tryDecompositions r index depth hop fragment rest
      | .redirected target => hop.elim (return none) fun follow => follow target
      | .answered reply => return some reply := by
  obtain ⟨d, position⟩ := p
  rw [tryDecompositions, attempt]
  cases d.match? fragment with
  | none => rfl
  | some m =>
    simp only [draw, bind_assoc]
    refine bind_congr fun choice => ?_
    cases d.reassemblies[choice.toNat]? with
    | none => rfl
    | some chosen =>
      simp only [bind_assoc, pure_bind]
      refine bind_congr fun _ => ?_
      cases chosen with
      | literal template =>
        simp only [carryOut, bind_assoc]
        refine bind_congr fun reply => ?_
        cases d.kept with
        | true => simp
        | false => simp
      | redirect target place =>
        cases place with
        | none => simp [carryOut]
        | some i => cases hop <;> simp [carryOut]

/-! What rules keep. -/

section

variable (steady : Conversation.Steady holds)
include steady

theorem keeps_pick (count : Int) : Keeps holds (pick count) := by
  intro c before
  rw [pick_apply]
  have after := steady.draw c before
  cases pickIndex c.source.next.1 count with
  | error b => exact ⟨after, trivial⟩
  | ok i => exact ⟨after, trivial⟩

theorem keeps_pickText (texts : List String) : Keeps holds (pickText texts) := by
  rw [pickText]
  split
  · exact keeps_pure _
  · refine (keeps_pick steady _).bind fun i => ?_
    split
    · exact keeps_pure _
    · exact keeps_breakDown _

theorem keeps_note (level : Log.Level) (message : String) (trace : List (String × Log.TraceValue)) :
    Keeps holds (note level message trace) := .note steady.record

theorem keeps_choose (slot : Slot) (count : Nat) : Keeps holds (choose slot count) := by
  refine (keeps_pick steady count).bind fun candidate => ?_
  refine Keeps.bind .read fun c => ?_
  exact Keeps.bind (.change fun c before => steady.choice c _ before) fun _ => keeps_pure _

theorem keeps_draw (p : Rules.Decomposition × Nat) : Keeps holds (e.draw r index p) := by
  refine (keeps_choose steady _ _).bind fun choice => ?_
  split
  · exact keeps_breakDown _
  · refine Keeps.bind ?_ fun _ => keeps_pure _
    rw [noteChoice]
    split
    · exact keeps_note steady _ _ _
    · exact keeps_pure _

end

section

variable (lasting : Conversation.Lasting holds)
include lasting

theorem keeps_remember (reply : String) : Keeps holds (remember reply) := by
  refine Keeps.bind (.change fun c before => lasting.save c reply before) fun _ => ?_
  refine Keeps.bind .read fun c => ?_
  dsimp only
  split
  · exact (keeps_breakDown _).bind fun _ => keeps_note lasting.toSteady _ _ _
  · exact keeps_note lasting.toSteady _ _ _

theorem keeps_carryOut (m : Regex.Match) (chosen : Reassembly) :
    Keeps holds (e.carryOut r depth hops d m chosen) := by
  rcases chosen with template | ⟨target, _ | i⟩
  · refine Keeps.bind ?_ fun reply => ?_
    · rw [assemble]
      split
      · exact keeps_pure _
      · exact keeps_breakDown _
    · split
      · exact (keeps_remember lasting reply).bind fun _ => keeps_pure _
      · exact keeps_pure _
  · exact (keeps_note lasting.toSteady _ _ _).bind fun _ => keeps_pure _
  · rw [carryOut]
    split
    · exact keeps_pure _
    · exact (keeps_note lasting.toSteady _ _ _).bind fun _ => keeps_pure _

theorem keeps_attempt (p : Rules.Decomposition × Nat) :
    Keeps holds (e.attempt r index depth hops fragment p) := by
  rw [attempt]
  split
  · exact keeps_pure _
  · exact (keeps_draw lasting.toSteady p).bind fun chosen => keeps_carryOut lasting _ chosen

theorem keeps_tryDecompositions {hop : Option (Nat → Turn (Option String))}
    (follows : ∀ follow ∈ hop, ∀ target, Keeps holds (follow target))
    (ds : List (Rules.Decomposition × Nat)) :
    Keeps holds (e.tryDecompositions r index depth hop fragment ds) := by
  induction ds with
  | nil => exact keeps_pure _
  | cons p rest ih =>
    rw [tryDecompositions_cons]
    refine (keeps_attempt lasting p).bind fun upshot => ?_
    cases upshot with
    | nothing => exact ih
    | kept reply => exact ih
    | answered reply => exact keeps_pure _
    | redirected target =>
      cases hop with
      | none => exact keeps_pure _
      | some follow => exact follows follow rfl target

/-- What holds of a conversation is kept by a rule, whatever it redirects to. By induction on the
redirections that are left. -/
theorem keeps_runRule (hops : Nat) (index : Nat) : Keeps holds (e.runRule fragment hops index) := by
  induction hops generalizing index with
  | zero =>
    rw [runRule]
    split
    · exact keeps_breakDown _
    · exact keeps_tryDecompositions lasting (by simp) _
  | succ hops ih =>
    rw [runRule]
    split
    · exact keeps_breakDown _
    · refine keeps_tryDecompositions lasting ?_ _
      rintro follow ⟨rfl⟩ target
      exact ih target

theorem keeps_answerBy (fragment : List Char) (index : Nat) : Keeps holds (e.answerBy fragment index) :=
  keeps_runRule lasting e.options.hopLimit index

end

end Engine
end Colloquy
