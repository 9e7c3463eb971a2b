import Colloquy.Proofs.Conversation.Turn
import Colloquy.Proofs.Memory
import Colloquy.Proofs.Reassembly
import Colloquy.Proofs.Rules.Ready
import Colloquy.Proofs.Substitution

/-! Every input has a reply, whatever was said before, unless a retouching cannot be carried out or a
number in a template has too many digits. -/

namespace Colloquy

open Text

/-- What may stop a reply: the replacement of a retouching, or a number with too many digits in a
template. -/
inductive RuleSet.Excuses (s : RuleSet) : Failure → Prop
  | retouching {r : Retouch} {text : List Char} {b : Breakdown} (member : r ∈ s.retouches)
      (failed : r.apply text = .error b) : Excuses s (.breakdown b)
  | number {r : Rules.Rule} {d : Rules.Decomposition} {template : String} {digits : List Char}
      (rule : r ∈ s.rules) (decomposition : d ∈ r.decompositions)
      (reassembly : .literal template ∈ d.reassemblies)
      (inside : .capture digits ∈ Template.pieces template)
      (long : digitLimit < digits.length) : Excuses s (.breakdown .badValue)

/-- Whether all that a rule set lets choose from are lists that there can be. -/
structure RuleSet.Holdable (s : RuleSet) : Prop where
  reassemblies : ∀ r ∈ s.rules, ∀ d ∈ r.decompositions, d.reassemblies.length < countLimit
  initials : s.initials.length < countLimit
  finals : s.finals.length < countLimit

/-- What an engine needs in order to choose: reassemblies to choose from, and rules at every position
that is referred to. -/
structure Engine.Complete (e : Engine) : Prop where
  answered : ∀ r ∈ e.rules.rules, ∀ d ∈ r.decompositions, d.reassemblies ≠ []
  linked : ∀ r ∈ e.rules.rules, ∀ d ∈ r.decompositions, ∀ target i,
    Reassembly.redirect target (some i) ∈ d.reassemblies → i < e.rules.rules.length
  fallback : e.fallback < e.rules.rules.length

/-- What an engine needs in order to reply, if numbers are shares. -/
structure Engine.Able (e : Engine) : Prop extends Engine.Complete e where
  holdable : e.rules.Holdable

/-- What holds of a conversation from its start on. -/
structure Conversation.Underway (c : Conversation) : Prop where
  unit : c.source.DrawsInUnit
  room : 0 ≤ c.session.memory.capacity

/-- How a reply may fail: with an excuse, or with more kept replies than there can be. -/
def Engine.Falters (e : Engine) (f : Failure) (c : Conversation) : Prop :=
  e.rules.Excuses f ∨ countLimit ≤ c.session.memory.size

/-- Whether a step keeps a conversation underway, gives only such values, and falters at worst. -/
abbrev Engine.Safe {α : Type} (e : Engine) (t : Turn α) (value : α → Prop) : Prop :=
  Turn.Safe Conversation.Underway t value e.Falters

/-- How many things there are to choose from by a number, with so many replies kept: greetings,
farewells, reassemblies of a decomposition, or the kept replies. -/
inductive Engine.Offers (e : Engine) (kept : Nat) : Nat → Prop
  | initials (some_ : e.rules.initials ≠ []) : Offers e kept e.rules.initials.length
  | finals (some_ : e.rules.finals ≠ []) : Offers e kept e.rules.finals.length
  | reassemblies {r : Rules.Rule} {d : Rules.Decomposition} (rule : r ∈ e.rules.rules)
      (decomposition : d ∈ r.decompositions) (some_ : d.reassemblies ≠ []) :
      Offers e kept d.reassemblies.length
  | replies (some_ : 0 < kept) : Offers e kept kept

/-- What is to be known of what holds in a conversation, so that every step leads to where it holds
again or to an allowed failure: it outlasts all but the drawing of a number, and that as well where the
number picks something. -/
structure Engine.Grounds (e : Engine) (holds : Conversation → Prop)
    (failure : Failure → Conversation → Prop) : Prop where
  room : ∀ c, holds c → 0 ≤ c.session.memory.capacity
  record : ∀ c records, holds c → holds { c with records }
  session : ∀ c session, session.memory.Within c.session.memory → holds c → holds { c with session }
  picked : ∀ c count i, e.Offers c.session.memory.size count →
    pickIndex c.source.next.1 count = .ok i → holds c → holds { c with source := c.source.next.2 }
  unpicked : ∀ c count b, e.Offers c.session.memory.size count →
    pickIndex c.source.next.1 count = .error b → holds c →
      failure (.breakdown b) { c with source := c.source.next.2 }
  excused : ∀ c f, e.rules.Excuses f → holds c → failure f c

namespace Engine

open Turn

variable {e : Engine} {r : Rules.Rule} {d : Rules.Decomposition} {fragment : List Char}

theorem Offers.pos {kept count : Nat} (offers : e.Offers kept count) : 0 < count := by
  cases offers with
  | initials some_ => exact List.length_pos_iff.mpr some_
  | finals some_ => exact List.length_pos_iff.mpr some_
  | reassemblies _ _ some_ => exact List.length_pos_iff.mpr some_
  | replies some_ => exact some_

theorem pick_apply (c : Conversation) (count : Int) :
    (pick count).apply c = ((pickIndex c.source.next.1 count).mapError .breakdown,
      { c with source := c.source.next.2 }) := by
  simp only [pick, apply_bind, apply_get, apply_set]
  cases pickIndex c.source.next.1 count <;> rfl

theorem choose_inside (h : History) (slot : Slot) {candidate count : Nat}
    (inside : candidate < count) :
    ∃ n : Nat, (h.choose slot candidate count).1 = n ∧ n < count := by
  rw [History.choose]
  split
  · exact ⟨candidate, rfl, inside⟩
  · next repeated =>
    split
    · exact ⟨0, rfl, by omega⟩
    · next more =>
      have same : (candidate : Int) = h.last slot := Decidable.of_not_not repeated
      refine ⟨candidate + 1, ?_, by omega⟩
      simp [← same]

theorem echo_ok (groups : Nat) (m : Regex.Match) (index : Nat) :
    ∃ text, e.echo groups m index = .ok text := by
  rw [echo, captured]
  split
  · exact ⟨_, rfl⟩
  · exact ⟨_, rfl⟩

theorem retouching_of_polish_error {retouches : List Retouch} {capital : Bool} {text : String}
    {b : Breakdown} (failed : Retouch.polish retouches capital text = .error b) :
    ∃ r ∈ retouches, ∃ text, r.apply text = .error b := by
  rw [Retouch.polish, Retouch.polishChars] at failed
  cases touched : retouches.foldlM (fun text r => r.apply text) (tidy text.toList) with
  | error _ =>
    rw [touched] at failed
    cases failed
    exact exists_of_foldlM_error touched
  | ok text =>
    rw [touched] at failed
    contradiction

section

variable {holds : Conversation → Prop} {failure : Failure → Conversation → Prop}
  (grounds : e.Grounds holds failure)
include grounds

theorem change_sound {change : Session → Session}
    (keeps : ∀ s, (change s).memory.Within s.memory) :
    Sound holds (changeSession change) (fun _ => True) failure :=
  .change fun c before => grounds.session c _ (keeps c.session) before

/-! Choices. -/

theorem pick_sound {count : Nat} (offers : ∀ kept, e.Offers kept count) :
    Sound holds (pick count) (fun i => ∃ n : Nat, i = n ∧ n < count) failure := by
  intro c before
  rw [pick_apply]
  cases picked : pickIndex c.source.next.1 count with
  | error b => exact .error (grounds.unpicked c count b (offers _) picked before)
  | ok i =>
    exact .ok (grounds.picked c count i (offers _) picked before)
      (pickIndex_inside (offers 0).pos picked)

theorem pickText_sound {texts : List String}
    (offers : texts ≠ [] → ∀ kept, e.Offers kept texts.length) :
    Sound holds (pickText texts) (fun _ => True) failure := by
  rw [pickText]
  split
  · exact .done trivial
  · next some_ =>
    refine .bind (pick_sound grounds (offers (by simpa using some_))) ?_
    rintro _ ⟨n, rfl, inside⟩
    rw [Int.toNat_natCast, List.getElem?_eq_getElem inside]
    exact .done trivial

theorem choose_sound (slot : Slot) {count : Nat} (offers : ∀ kept, e.Offers kept count) :
    Sound holds (choose slot count) (fun i => ∃ n : Nat, i = n ∧ n < count) failure := by
  refine .bind (pick_sound grounds offers) ?_
  rintro _ ⟨n, rfl, inside⟩
  refine .bind .read fun c _ => ?_
  refine .bind (change_sound grounds fun s => s.memory.within_refl) fun _ _ => ?_
  exact .done (choose_inside _ slot inside)

theorem remember_sound (reply : String) : Sound holds (remember reply) (fun _ => True) failure := by
  intro c before
  have room : (c.session.memory.save reply).canSave = true := decide_eq_true (grounds.room c before)
  have saved := grounds.session c { c.session with memory := c.session.memory.save reply }
    (c.session.memory.within_save reply) before
  simp only [remember, apply_bind, apply_changeSession, apply_get, room]
  exact .ok (grounds.record _ _ saved) trivial

theorem fetchKept?_sound : Sound holds fetchKept? (fun _ => True) failure := by
  intro c before
  simp only [fetchKept?, apply_bind, apply_get]
  by_cases empty : c.session.memory.items.isEmpty
  · simp only [empty, if_true]
    exact .ok before trivial
  · have items : 0 < c.session.memory.size := by
      simpa [Memory.size, List.length_pos_iff] using empty
    have offers : e.Offers c.session.memory.size c.session.memory.size := .replies items
    rw [if_neg empty, apply_bind, pick_apply]
    cases picked : pickIndex c.source.next.1 c.session.memory.size with
    | error b => exact .error (grounds.unpicked c _ b offers picked before)
    | ok i =>
      have drawn := grounds.picked c _ i offers picked before
      obtain ⟨n, rfl, inside⟩ := pickIndex_inside items picked
      have taken : c.session.memory.take? n = some (c.session.memory.items[n],
          { c.session.memory with items := c.session.memory.items.eraseIdx n }) := by
        rw [Memory.take?, List.getElem?_eq_getElem inside]
        rfl
      simp only [Except.mapError, Int.toNat_natCast, taken, apply_bind, apply_changeSession,
        apply_pure]
      exact .ok (grounds.session _ _ (Memory.within_take taken) drawn) trivial

/-! Rules. -/

theorem assemble_sound (rule : r ∈ e.rules.rules) (decomposition : d ∈ r.decompositions)
    {template : String} (reassembly : .literal template ∈ d.reassemblies) (m : Regex.Match) :
    Sound holds (e.assemble d m template) (fun _ => True) failure := by
  rw [assemble]
  split
  · exact .done trivial
  · next b failed =>
    obtain ⟨rfl, digits, inside, unread⟩ :=
      Template.unread_of_fill_error (echo_ok d.expression.groups m) failed
    have long := Template.long_of_mem_pieces inside unread
    exact fun c before =>
      .error (grounds.excused c _ (.number rule decomposition reassembly inside long) before)

theorem noteChoice_sound (chosen : Reassembly) :
    Sound holds (e.noteChoice r d chosen) (fun _ => True) failure := by
  rw [noteChoice]
  split
  · exact .note grounds.record
  · exact .done trivial

theorem tryDecompositions_sound (complete : e.Complete) (rule : r ∈ e.rules.rules)
    (index depth : Nat) {hop : Option (Nat → Turn (Option String))}
    (follows : ∀ follow ∈ hop, ∀ i < e.rules.rules.length,
      Sound holds (follow i) (fun _ => True) failure)
    {ds : List (Rules.Decomposition × Nat)} (inside : ∀ p ∈ ds, p.1 ∈ r.decompositions) :
    Sound holds (e.tryDecompositions r index depth hop fragment ds) (fun _ => True) failure := by
  induction ds with
  | nil => exact .done trivial
  | cons p rest ih =>
    obtain ⟨d, position⟩ := p
    have decomposition : d ∈ r.decompositions := inside _ List.mem_cons_self
    have later := ih fun p member => inside p (List.mem_cons_of_mem _ member)
    rw [tryDecompositions]
    split
    · exact later
    · next m _ =>
      have some_ : d.reassemblies ≠ [] := complete.answered r rule d decomposition
      refine .bind (choose_sound grounds _ fun _ => .reassemblies rule decomposition some_) ?_
      rintro _ ⟨n, rfl, inside⟩
      rw [Int.toNat_natCast, List.getElem?_eq_getElem inside]
      have reassembly : d.reassemblies[n] ∈ d.reassemblies := List.getElem_mem inside
      refine .bind (noteChoice_sound grounds _) fun _ _ => ?_
      cases chosen : d.reassemblies[n] with
      | literal template =>
        rw [chosen] at reassembly
        refine .bind (assemble_sound grounds rule decomposition reassembly m) fun reply _ => ?_
        split
        · exact .bind (remember_sound grounds reply) fun _ _ => later
        · exact .done trivial
      | redirect target place =>
        rw [chosen] at reassembly
        cases place with
        | none => exact .bind (.note grounds.record) fun _ _ => later
        | some i =>
          cases hop with
          | none => exact .bind (.note grounds.record) fun _ _ => later
          | some follow =>
            exact follows follow rfl i (complete.linked r rule d decomposition target i reassembly)

/-- A rule leads where its steps may lead. By induction on the redirections that are left. -/
theorem runRule_sound (complete : e.Complete) (hops : Nat) {index : Nat}
    (inside : index < e.rules.rules.length) :
    Sound holds (e.runRule fragment hops index) (fun _ => True) failure := by
  induction hops generalizing index with
  | zero =>
    rw [runRule, List.getElem?_eq_getElem inside]
    exact tryDecompositions_sound grounds complete (List.getElem_mem inside) _ _ (by simp)
      fun p member => List.fst_mem_of_mem_zipIdx member
  | succ hops ih =>
    rw [runRule, List.getElem?_eq_getElem inside]
    refine tryDecompositions_sound grounds complete (List.getElem_mem inside) _ _ ?_
      fun p member => List.fst_mem_of_mem_zipIdx member
    rintro follow ⟨rfl⟩ i inside
    exact ih inside

theorem tryRules_sound (complete : e.Complete) {rs : List (Rules.Rule × Nat)}
    (inside : ∀ p ∈ rs, p.2 < e.rules.rules.length) :
    Sound holds (e.tryRules fragment rs) (fun _ => True) failure := by
  induction rs with
  | nil => exact .done trivial
  | cons p rest ih =>
    obtain ⟨r, index⟩ := p
    have later := ih fun p member => inside p (List.mem_cons_of_mem _ member)
    rw [tryRules]
    split
    · refine .bind (runRule_sound grounds complete _ (inside _ List.mem_cons_self)) fun reply _ => ?_
      cases reply with
      | none => exact later
      | some text => exact .done trivial
    · exact later

/-! Replies. -/

theorem finish_sound (reply : String) : Sound holds (e.finish reply) (fun _ => True) failure := by
  rw [finish]
  split
  · exact .done trivial
  · next b failed =>
    obtain ⟨r, member, text, failed⟩ := retouching_of_polish_error failed
    exact fun c before => .error (grounds.excused c _ (.retouching member failed) before)

theorem tryFragments_sound (complete : e.Complete) (fragments : List String) :
    Sound holds (e.tryFragments fragments) (fun _ => True) failure := by
  induction fragments with
  | nil => exact .done trivial
  | cons fragment rest ih =>
    rw [tryFragments]
    split
    · exact .done trivial
    · refine .bind (tryRules_sound grounds complete fun p member => ?_) fun reply _ => ?_
      · exact List.snd_lt_of_mem_zipIdx member
      · cases reply with
        | none => exact ih
        | some text => exact .done trivial

theorem fallBack_sound (complete : e.Complete) :
    Sound holds e.fallBack (fun _ => True) failure := by
  refine .bind (fetchKept?_sound grounds) fun kept _ => ?_
  cases kept with
  | some reply =>
    refine .bind .read fun c _ => ?_
    exact .bind (.note grounds.record) fun _ _ => finish_sound grounds reply
  | none =>
    refine .bind (runRule_sound grounds complete _ complete.fallback) fun reply _ => ?_
    cases reply with
    | some reply => exact finish_sound grounds reply
    | none => exact .done trivial

theorem greet_sound : Sound holds e.greet (fun _ => True) failure :=
  pickText_sound grounds fun some_ _ => .initials some_

theorem bidFarewell_sound : Sound holds e.bidFarewell (fun _ => True) failure :=
  pickText_sound grounds fun some_ _ => .finals some_

theorem reply_sound (complete : e.Complete) (input : String) :
    Sound holds (e.reply input) (fun _ => True) failure := by
  have marked (quit : Bool) : Sound holds (changeSession fun s => { s with quit }) (fun _ => True)
      failure := change_sound grounds fun s => s.memory.within_refl
  rw [reply]
  refine .bind (marked false) fun _ _ => ?_
  refine .bind (tryFragments_sound grounds complete _) fun outcome _ => ?_
  cases outcome with
  | farewell => exact .bind (marked true) fun _ _ => bidFarewell_sound grounds
  | reply text => exact finish_sound grounds text
  | nothing => exact fallBack_sound grounds complete

end

/-! Replies by numbers that are shares. -/

theorem Offers.lt {kept count : Nat} (offers : e.Offers kept count) (holdable : e.rules.Holdable)
    (held : kept < countLimit) : count < countLimit := by
  cases offers with
  | initials _ => exact holdable.initials
  | finals _ => exact holdable.finals
  | reassemblies rule decomposition _ => exact holdable.reassemblies _ rule _ decomposition
  | replies _ => exact held

/-- What holds of a conversation underway is enough for every step, and faltering is the worst that comes
of one. -/
theorem grounds_underway (holdable : e.rules.Holdable) :
    e.Grounds Conversation.Underway fun f c => c.Underway ∧ e.Falters f c where
  room _ underway := underway.room
  record _ _ underway := ⟨underway.unit, underway.room⟩
  session _ _ within underway := ⟨underway.unit, within.capacity ▸ underway.room⟩
  picked _ _ _ _ _ underway := ⟨underway.unit.next, underway.room⟩
  unpicked c count b offers unpicked underway := by
    refine ⟨⟨underway.unit.next, underway.room⟩, .inr (Nat.le_of_not_lt fun held => ?_)⟩
    have scales := underway.unit.first.moderate.scalesTo (offers.lt holdable held)
    exact not_scalesTo_of_error unpicked scales
  excused _ _ excused underway := ⟨underway, .inl excused⟩

theorem greet_safe (able : e.Able) : e.Safe e.greet fun _ => True :=
  safe_iff_sound.mpr (greet_sound (grounds_underway able.holdable))

theorem bidFarewell_safe (able : e.Able) : e.Safe e.bidFarewell fun _ => True :=
  safe_iff_sound.mpr (bidFarewell_sound (grounds_underway able.holdable))

theorem reply_safe (able : e.Able) (input : String) : e.Safe (e.reply input) fun _ => True :=
  safe_iff_sound.mpr (reply_sound (grounds_underway able.holdable) able.toComplete input)

end Engine

/-! Calls one after the other. -/

/-- What may be asked of a conversation. -/
inductive Call where
  | reply (input : String)
  | greet
  | bidFarewell
  | reset
  | reseed (seed : Data)

namespace Engine

open Turn

variable {e : Engine}

def perform (e : Engine) : Call → Turn Unit
  | .reply input => do let _ ← e.reply input
  | .greet => do let _ ← e.greet
  | .bidFarewell => do let _ ← e.bidFarewell
  | .reset => e.reset
  | .reseed seed => e.reseed seed

def after (e : Engine) (c : Conversation) (calls : List Call) : Conversation :=
  calls.foldl (fun c call => ((e.perform call).apply c).2) c

theorem perform_underway (able : e.Able) (call : Call) {c : Conversation} (underway : c.Underway) :
    ((e.perform call).apply c).2.Underway := by
  have ignored {t : Turn String} (safe : e.Safe t fun _ => True) :
      e.Safe (do let _ ← t) fun _ => True := .bind safe fun _ _ => .done trivial
  cases call with
  | reply input => exact (ignored (reply_safe able input)).keeps underway
  | greet => exact (ignored (greet_safe able)).keeps underway
  | bidFarewell => exact (ignored (bidFarewell_safe able)).keeps underway
  | reset => exact ⟨underway.unit, underway.room⟩
  | reseed seed =>
    simp only [perform, reseed, apply_bind, apply_get]
    split
    · exact underway
    · split
      · exact underway
      · exact ⟨RandomSource.drawsInUnit_seeded _, underway.room⟩

/-- A conversation is still underway after any calls. -/
theorem after_underway (able : e.Able) (calls : List Call) {c : Conversation}
    (underway : c.Underway) : (e.after c calls).Underway := by
  induction calls generalizing c with
  | nil => exact underway
  | cons call rest ih => exact ih (perform_underway able call underway)

end Engine

/-- Rules that are ready always have something to choose from, and refer to rules that there are. -/
theorem Rules.Ready.complete {synonyms : List Pattern.Synonym} {written : List Script.Rule}
    {e : Engine} (ready : Rules.Ready synonyms written e.rules.rules)
    (fallback : e.rules.fallback? = some e.fallback) : e.Complete where
  answered := ready.answered
  linked := by
    intro r rule d decomposition target i reassembly
    obtain ⟨_, ⟨r, at_i, _⟩, _⟩ := ready.linked r rule d decomposition target (some i) reassembly
    exact (List.getElem?_eq_some_iff.mp at_i).1
  fallback := by
    obtain ⟨_, i, r, found, at_i, _⟩ := ready.fallback
    cases fallback.symm.trans found
    exact (List.getElem?_eq_some_iff.mp at_i).1

theorem Rules.Ready.able {synonyms : List Pattern.Synonym} {written : List Script.Rule}
    {e : Engine} (ready : Rules.Ready synonyms written e.rules.rules)
    (fallback : e.rules.fallback? = some e.fallback) (holdable : e.rules.Holdable) : e.Able :=
  ⟨ready.complete fallback, holdable⟩

/-- Rules that can be made ready, under settings that are accepted and with numbers that are shares,
reply to every input after any calls, if nothing excuses them. What the tables put in for a word is
what they have for it. -/
theorem reply_given (entries : List Script.Entry) (tables : Script) (s : RuleSet)
    (made : (Rules.compileSet entries tables).outcome = .ok s) (holdable : s.Holdable)
    (source : RandomSource) (unit : source.DrawsInUnit) (settings : EngineSettings)
    (options : Options) (accepted : settings.check = .ok options) :
    s.pres.Complete ∧ s.posts.Complete ∧
    ∃ e c, Engine.start s (.source source) settings = .ok (e, c) ∧
      ∀ calls input result after, (e.reply input).apply (e.after c calls) = (result, after) →
        after.session.memory.size < countLimit →
          (∃ text, result = .ok text) ∨ ∃ f, result = .error f ∧ s.Excuses f := by
  obtain ⟨⟨written, _, ready⟩, pres, posts⟩ := Rules.compileSet_ok made
  obtain ⟨_, i, _, found, _⟩ := ready.fallback
  rw [pres, posts]
  refine ⟨Substitutions.ofPairs_complete _, Substitutions.ofPairs_complete _, _, _,
    Rules.start_eq_ok found accepted source, ?_⟩
  intro calls input result after said held
  have able : Engine.Able ⟨s, i, options⟩ := ready.able found holdable
  have underway : Conversation.Underway ⟨source, .start s options.capacity, []⟩ :=
    ⟨unit, Int.natCast_nonneg _⟩
  have safe := Engine.reply_safe able input _ (Engine.after_underway able calls underway)
  rw [said] at safe
  cases result with
  | ok text => exact .inl ⟨text, rfl⟩
  | error f =>
    rcases safe.2 with excused | full
    · exact .inr ⟨f, rfl, excused⟩
    · exact absurd held (Nat.not_lt.mpr full)

instance (s : RuleSet) : Decidable s.Holdable :=
  decidable_of_iff
    ((∀ r ∈ s.rules, ∀ d ∈ r.decompositions, d.reassemblies.length < countLimit) ∧
      s.initials.length < countLimit ∧ s.finals.length < countLimit)
    ⟨fun h => ⟨h.1, h.2.1, h.2.2⟩, fun h => ⟨h.1, h.2, h.3⟩⟩

def halves : RandomSource := .sequence ⟨fun _ => .finite false 1 (-1)⟩ 0

theorem halves_inUnit : halves.DrawsInUnit :=
  RandomSource.drawsInUnit_sequence 0 fun _ =>
    ⟨1 / 2, by norm_num [Double.toRat?, Double.signed], by norm_num, by norm_num⟩

def keptAfter (s : RuleSet) (calls : List Call) (input : String) : Option Nat :=
  match Engine.start s (.source halves) .default with
  | .ok (e, c) => some ((e.reply input).apply (e.after c calls)).2.session.memory.size
  | .error _ => none

/-- Calls of which one leaves a reply to be kept and one takes it back. -/
def bickering : List Call :=
  [.greet, .reply "You always win. I never do!", .reply "So?", .reseed (.int 3), .reset]

theorem quarrel_answered : ∃ s e c, (Rules.compileSet Rules.quarrel .empty).outcome = .ok s ∧
    s.Holdable ∧ halves.DrawsInUnit ∧ Engine.start s (.source halves) .default = .ok (e, c) ∧
    ((∃ text, ((e.reply "Never, but always.").apply (e.after c bickering)).1 = .ok text) ∨
      ∃ f, ((e.reply "Never, but always.").apply (e.after c bickering)).1 = .error f ∧
        s.Excuses f) := by
  have checked : (Rules.compileSet Rules.quarrel .empty).outcome.toOption.any (fun s =>
      decide s.Holdable && (keptAfter s bickering "Never, but always.").any (· < countLimit)) := by
    decide +kernel
  obtain ⟨s, made, fits⟩ := exists_of_any checked
  obtain ⟨holdable, kept⟩ := (Bool.and_eq_true _ _).mp fits
  have holdable : s.Holdable := of_decide_eq_true holdable
  obtain ⟨_, _, e, c, started, replies⟩ := reply_given Rules.quarrel .empty s made holdable halves
    halves_inUnit .default ⟨true, 20, 16, false⟩ rfl
  rw [keptAfter, started] at kept
  exact ⟨s, e, c, made, holdable, halves_inUnit, started,
    replies bickering _ _ _ Prod.mk.eta.symm (of_decide_eq_true kept)⟩

end Colloquy
