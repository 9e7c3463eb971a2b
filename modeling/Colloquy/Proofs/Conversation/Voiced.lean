import Colloquy.Proofs.Conversation.Anew

/-! What all replies have in common. Whatever holds of all texts that templates are filled to holds of
every reply of a rule and of every reply that is kept, whatever was said before. -/

namespace Colloquy

variable {α : Type}

def Conversation.KeepsOnly (fits : String → Prop) (c : Conversation) : Prop :=
  ∀ reply ∈ c.session.memory.items, fits reply

/-- Whether a step gives such values only, when it gives any, and keeps such replies only. -/
abbrev Turn.Gives (fits : String → Prop) (t : Turn α) (value : α → Prop) : Prop :=
  Turn.Safe (Conversation.KeepsOnly fits) t value fun _ _ => True

/-- Whether something holds of all texts that the templates of a rule set are filled to. -/
def Engine.Voices (e : Engine) (fits : String → Prop) : Prop :=
  ∀ r ∈ e.rules.rules, ∀ d ∈ r.decompositions, ∀ template, .literal template ∈ d.reassemblies →
    ∀ m text, Template.fill (e.echo d.expression.groups m) (Template.pieces template) = .ok text →
      fits (String.ofList (Text.tidy text))

theorem Memory.mem_of_mem_save {m : Memory} {reply text : String} (member : text ∈ (m.save reply).items) :
    text ∈ m.items ∨ text = reply := by
  have among := List.mem_of_mem_drop member
  simpa using among

namespace Engine

open Turn

variable {e : Engine} {fits : String → Prop} {r : Rules.Rule} {d : Rules.Decomposition}
  {index depth : Nat} {hops : Bool} {fragment : List Char} {c : Conversation}

theorem steady_keepsOnly : Conversation.Steady (Conversation.KeepsOnly fits) where
  draw _ only := only
  choice _ _ only := only
  record _ _ only := only

def Fits (fits : String → Prop) (reply : Option String) : Prop := ∀ text ∈ reply, fits text

theorem draw_gives (p : Rules.Decomposition × Nat) :
    Gives fits (e.draw r index p) (· ∈ p.1.reassemblies) := by
  have notes (chosen : Reassembly) : Keeps (Conversation.KeepsOnly fits) (e.noteChoice r p.1 chosen) := by
    rw [noteChoice]
    split
    · exact keeps_note steady_keepsOnly _ _ _
    · exact keeps_pure _
  refine Safe.bind (keeps_choose steady_keepsOnly _ _) fun choice _ => ?_
  split
  · exact fun _ only => ⟨only, trivial⟩
  · next chosen found => exact Safe.bind (notes chosen) fun _ _ => .done (List.mem_of_getElem? found)

theorem remember_gives {reply : String} (fitting : fits reply) :
    Gives fits (remember reply) fun _ => True := by
  have saves : Keeps (Conversation.KeepsOnly fits)
      (changeSession fun s => { s with memory := s.memory.save reply }) := by
    refine .change fun c only text member => ?_
    rcases Memory.mem_of_mem_save member with before | rfl
    · exact only text before
    · exact fitting
  refine saves.bind fun _ => Keeps.bind .read fun c => ?_
  dsimp only
  split
  · exact (keeps_breakDown _).bind fun _ => keeps_note steady_keepsOnly _ _ _
  · exact keeps_note steady_keepsOnly _ _ _

def Upshot.Fits (fits : String → Prop) : Upshot → Prop
  | .answered reply => fits reply
  | _ => True

section

variable (voices : e.Voices fits)
include voices

theorem assemble_gives (rule : r ∈ e.rules.rules) (decomposition : d ∈ r.decompositions)
    (m : Regex.Match) {template : String} (reassembly : .literal template ∈ d.reassemblies) :
    Gives fits (e.assemble d m template) fits := by
  rw [assemble]
  split
  · next text filled => exact .done (voices r rule d decomposition template reassembly m text filled)
  · exact fun _ only => ⟨only, trivial⟩

theorem carryOut_gives (rule : r ∈ e.rules.rules) (decomposition : d ∈ r.decompositions)
    (m : Regex.Match) {chosen : Reassembly} (reassembly : chosen ∈ d.reassemblies) :
    Gives fits (e.carryOut r depth hops d m chosen) (Upshot.Fits fits) := by
  rcases chosen with template | ⟨target, _ | i⟩
  · have assembles := assemble_gives voices rule decomposition m reassembly
    refine Safe.bind assembles fun reply fitting => ?_
    split
    · exact Safe.bind (remember_gives fitting) fun _ _ => .done trivial
    · exact .done fitting
  · exact Safe.bind (keeps_note steady_keepsOnly _ _ _) fun _ _ => .done trivial
  · rw [carryOut]
    split
    · exact .done trivial
    · exact Safe.bind (keeps_note steady_keepsOnly _ _ _) fun _ _ => .done trivial

theorem attempt_gives (rule : r ∈ e.rules.rules) {p : Rules.Decomposition × Nat}
    (decomposition : p.1 ∈ r.decompositions) :
    Gives fits (e.attempt r index depth hops fragment p) (Upshot.Fits fits) := by
  rw [attempt]
  split
  · exact .done trivial
  · exact Safe.bind (draw_gives p) fun chosen reassembly =>
      carryOut_gives voices rule decomposition _ reassembly

theorem tryDecompositions_gives (rule : r ∈ e.rules.rules)
    {hop : Option (Nat → Turn (Option String))}
    (follows : ∀ follow ∈ hop, ∀ target, Gives fits (follow target) (Fits fits))
    {ds : List (Rules.Decomposition × Nat)} (inside : ∀ p ∈ ds, p.1 ∈ r.decompositions) :
    Gives fits (e.tryDecompositions r index depth hop fragment ds) (Fits fits) := by
  induction ds with
  | nil => exact .done nofun
  | cons p rest ih =>
    obtain ⟨first, others⟩ := List.forall_mem_cons.mp inside
    rw [tryDecompositions_cons]
    refine Safe.bind (attempt_gives voices rule first) fun upshot fitting => ?_
    cases upshot with
    | nothing => exact ih others
    | kept reply => exact ih others
    | answered reply =>
      refine .done ?_
      rintro text ⟨rfl⟩
      exact fitting
    | redirected target =>
      cases hop with
      | none => exact .done nofun
      | some follow => exact follows follow rfl target

/-- A rule gives replies that fit, its redirections included. -/
theorem runRule_gives (hops index : Nat) : Gives fits (e.runRule fragment hops index) (Fits fits) := by
  induction hops generalizing index with
  | zero =>
    rw [runRule]
    split
    · exact fun _ only => ⟨only, trivial⟩
    · next r found =>
      exact tryDecompositions_gives voices (List.mem_of_getElem? found) (by simp)
        fun p member => List.fst_mem_of_mem_zipIdx member
  | succ hops ih =>
    rw [runRule]
    split
    · exact fun _ only => ⟨only, trivial⟩
    · next r found =>
      refine tryDecompositions_gives voices (List.mem_of_getElem? found) ?_
        fun p member => List.fst_mem_of_mem_zipIdx member
      rintro follow ⟨rfl⟩ target
      exact ih target

theorem answerBy_gives (fragment : List Char) (index : Nat) :
    Gives fits (e.answerBy fragment index) (Fits fits) :=
  runRule_gives voices e.options.hopLimit index

theorem pursue_gives (tasks : List Task) : Gives fits (e.pursue tasks) (Fits fits) := by
  induction tasks with
  | nil => exact .done nofun
  | cons task rest ih =>
    obtain ⟨fragment, index⟩ := task
    rw [pursue]
    refine Safe.bind (answerBy_gives voices fragment index) fun reply fitting => ?_
    cases reply with
    | none => exact ih
    | some text => exact .done fitting

end

/-- A reply that is taken back is one that was kept, and leaves the others. -/
theorem fetchKept?_gives : Gives fits fetchKept? (Fits fits) := by
  intro c only
  by_cases empty : c.session.memory.items = []
  · rw [fetchKept?_empty empty]
    exact ⟨only, nofun⟩
  · rw [fetchKept?_apply empty]
    rcases Memory.serve_take empty c.source.next.1 with ⟨b, _, served⟩ | ⟨index, inside, _, served⟩
    · rw [served]
      exact ⟨only, trivial⟩
    · rw [served]
      refine ⟨fun text member => only text (List.mem_of_mem_eraseIdx member), ?_⟩
      rintro text ⟨rfl⟩
      exact only _ (List.getElem_mem inside)

/-! What is said. -/

/-- Whether a text is a reply that fits, with its last touches, or one of the final words. -/
inductive Says (e : Engine) (fits : String → Prop) (text : String) : Prop
  | reply {reply : String} (fitting : fits reply) (polished : e.polished reply = .ok text)
  | farewell (member : text ∈ e.rules.finals)

theorem finish_gives {reply : String} (fitting : fits reply) :
    Gives fits (e.finish reply) (e.Says fits) := by
  intro c only
  rw [finish_apply]
  refine ⟨only, ?_⟩
  cases polished : e.polished reply with
  | error f => trivial
  | ok text => exact .reply fitting polished

theorem bidFarewell_gives (parts : e.rules.finals ≠ []) : Gives fits e.bidFarewell (e.Says fits) := by
  rw [bidFarewell, pickText, if_neg (by simpa using parts)]
  refine Safe.bind (keeps_pick steady_keepsOnly _) fun index _ => ?_
  split
  · next text found => exact .done (.farewell (List.mem_of_getElem? found))
  · exact fun _ only => ⟨only, trivial⟩

/-- Whether the fallback rule gives such replies only, and always gives one. -/
def Backs (e : Engine) (fits : String → Prop) : Prop :=
  Gives fits (e.answerBy [' '] e.fallback) fun reply => ∃ text, reply = some text ∧ fits text

theorem fallBack_gives (backs : e.Backs fits) : Gives fits e.fallBack (e.Says fits) := by
  refine Safe.bind fetchKept?_gives fun kept fitting => ?_
  cases kept with
  | some reply =>
    refine Safe.bind .read fun c _ => ?_
    refine Safe.bind (keeps_note steady_keepsOnly _ _ _) fun _ _ => ?_
    exact finish_gives (fitting reply rfl)
  | none =>
    refine Safe.bind backs ?_
    rintro _ ⟨text, rfl, fitting⟩
    exact finish_gives fitting

/-- Every input is answered with a reply that fits, or with one of the final words. -/
theorem reply_gives (voices : e.Voices fits) (backs : e.Backs fits) (parts : e.rules.finals ≠ [])
    (input : String) : Gives fits (e.reply input) (e.Says fits) := by
  have marks (quit : Bool) : Keeps (Conversation.KeepsOnly fits)
      (changeSession fun s => { s with quit }) := .change fun _ only => only
  rw [reply]
  refine Safe.bind (marks false) fun _ _ => ?_
  rw [tryFragments_eq, bind_assoc]
  refine Safe.bind (pursue_gives voices _) fun reply fitting => ?_
  cases reply with
  | some text => exact finish_gives (fitting text rfl)
  | none =>
    rw [pure_bind]
    cases (Fragment.split input).any e.isFarewell with
    | true =>
      exact Safe.bind (marks true) fun _ _ => bidFarewell_gives parts
    | false => exact fallBack_gives backs

/-! Calls one after the other. -/

theorem perform_keepsOnly (voices : e.Voices fits) (backs : e.Backs fits) (parts : e.rules.finals ≠ [])
    (call : Call) (only : c.KeepsOnly fits) : ((e.perform call).apply c).2.KeepsOnly fits := by
  have ignored {t : Turn String} {value : String → Prop} (gives : Gives fits t value) :
      Keeps (Conversation.KeepsOnly fits) (do let _ ← t) :=
    Safe.bind gives fun _ _ => .done trivial
  cases call with
  | reply input => exact (ignored (reply_gives voices backs parts input)).keeps only
  | greet => exact (ignored (keeps_pickText steady_keepsOnly _)).keeps only
  | bidFarewell => exact (ignored (keeps_pickText steady_keepsOnly _)).keeps only
  | reset => exact fun _ member => absurd member List.not_mem_nil
  | reseed seed =>
    simp only [perform, reseed, apply_bind, apply_get]
    split
    · exact only
    · split
      · exact only
      · exact fun _ member => absurd member List.not_mem_nil

/-- Only replies that fit are ever kept. -/
theorem after_keepsOnly (voices : e.Voices fits) (backs : e.Backs fits) (parts : e.rules.finals ≠ [])
    (calls : List Call) (only : c.KeepsOnly fits) : (e.after c calls).KeepsOnly fits := by
  induction calls generalizing c with
  | nil => exact only
  | cons call rest ih => exact ih (perform_keepsOnly voices backs parts call only)

end Engine
end Colloquy
