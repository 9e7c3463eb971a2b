import Colloquy.Proofs.Conversation.Agenda
import Colloquy.Proofs.Fragment

/-! When a conversation is over. What ends it is a fragment and not an input: a farewell of the script
ends it if the input is broken so that the farewell is a fragment, and if no rule replies before. -/

namespace Colloquy

namespace Engine

open Turn

variable {e : Engine} {c c' c'' after : Conversation} {tasks ran rest : List Task}
  {holds : Conversation → Prop} {fragments : List String} {result : Except Failure String}

/-! What the run of an agenda keeps. -/

/-- Tasks that come to nothing keep what a rule keeps. -/
theorem Fruitless.keeps (lasting : Conversation.Lasting holds) (passed : e.Fruitless c tasks c')
    (before : holds c) : holds c' := by
  induction passed with
  | nil => exact before
  | @cons c c₁ _ fragment index rest run others ih =>
    have kept := (keeps_answerBy (e := e) lasting fragment index c before).1
    rw [run] at kept
    exact ih kept

theorem Fruitless.pursue (passed : e.Fruitless c tasks c') :
    (e.pursue tasks).apply c = (.ok none, c') := by
  induction passed with
  | nil => rfl
  | cons run others ih =>
    rw [Engine.pursue, apply_bind, run]
    exact ih

/-- An agenda that is settled by one of its tasks does not come to nothing. The run up to that task is
the same, and so is its outcome. -/
theorem not_fruitless {fragment : List Char} {index : Nat}
    {outcome : Except Failure (Option String)} (passed : e.Fruitless c ran c')
    (run : (e.answerBy fragment index).apply c' = (outcome, c'')) (ends : outcome ≠ .ok none)
    (c₁ : Conversation) : ¬ e.Fruitless c (ran ++ (fragment, index) :: rest) c₁ := by
  intro fruitless
  have nothing := fruitless.pursue
  rw [pursue_append, apply_bind, passed.pursue] at nothing
  simp only [Engine.pursue, apply_bind, run] at nothing
  rcases outcome with f | reply
  · cases nothing
  · cases reply with
    | none => exact ends rfl
    | some text => cases nothing

/-! Whether the last input was a farewell. -/

theorem lasting_quit (finished : Bool) : Conversation.Lasting fun c => c.session.quit = finished where
  draw _ same := same
  choice _ _ same := same
  record _ _ same := same
  save _ _ same := same

theorem lasting_unit : Conversation.Lasting fun c => c.source.DrawsInUnit where
  draw _ unit := unit.next
  choice _ _ unit := unit
  record _ _ unit := unit
  save _ _ unit := unit

theorem answerBy_quit {fragment : List Char} {index : Nat}
    {outcome : Except Failure (Option String)}
    (run : (e.answerBy fragment index).apply c = (outcome, c')) : c'.session.quit = c.session.quit := by
  have kept := (keeps_answerBy (e := e) (lasting_quit c.session.quit) fragment index c rfl).1
  rwa [run] at kept

theorem fetchKept?_quit (c : Conversation) :
    (fetchKept?.apply c).2.session.quit = c.session.quit := by
  by_cases empty : c.session.memory.items = []
  · rw [fetchKept?_empty empty]
  · rw [fetchKept?_apply empty]

/-- After an input that ends the conversation all has come to nothing before a farewell. Rules leave the
mark of a farewell alone, so that only the farewell itself sets it. -/
theorem Handles.quit_iff (handled : e.Handles fragments c result after)
    (resumed : c.session.quit = false) : after.session.quit = true ↔
      (∃ f ∈ fragments, e.isFarewell f) ∧ ∃ c', e.Fruitless c (e.agenda fragments) c' := by
  have still {tasks : List Task} {c' : Conversation} (passed : e.Fruitless c tasks c') :
      c'.session.quit = false := passed.keeps (lasting_quit false) resumed
  cases handled with
  | settled plan passed run ends =>
    rw [answerBy_quit run, still passed, plan]
    refine iff_of_false Bool.false_ne_true fun finished => ?_
    obtain ⟨_, c₁, fruitless⟩ := finished
    exact not_fruitless passed run ends c₁ fruitless
  | @parted c' _ _ passed farewell bid =>
    have finished := (keeps_pickText (lasting_quit true).toSteady e.rules.finals c'.ended rfl).1
    rw [← bidFarewell, bid] at finished
    exact iff_of_true finished ⟨farewell, c', passed⟩
  | @recalled c' c'' reply passed stays held taken =>
    have same := fetchKept?_quit c'
    rw [taken, still passed] at same
    exact iff_of_false (ne_true_of_eq_false same) fun finished => stays finished.1
  | @unpicked c' _ f passed stays held refused =>
    have same := fetchKept?_quit c'
    rw [refused, still passed] at same
    exact iff_of_false (ne_true_of_eq_false same) fun finished => stays finished.1
  | fellBack passed stays empty run =>
    rw [answerBy_quit run, still passed]
    exact iff_of_false Bool.false_ne_true fun finished => stays finished.1

/-! What is said then. -/

theorem pickText_given {texts : List String} (held : texts.length < countLimit)
    (unit : c.source.DrawsInUnit) : ∃ text, ((pickText texts).apply c).1 = .ok text ∧
      (text ∈ texts ∨ texts = [] ∧ text = "") := by
  rw [pickText]
  cases texts with
  | nil => exact ⟨"", rfl, .inr ⟨rfl, rfl⟩⟩
  | cons first others =>
    obtain ⟨i, picked⟩ := pickIndex_ok unit.first held
    obtain ⟨index, rfl, inside⟩ := pickIndex_inside (Nat.zero_lt_succ _) picked
    have found : (first :: others)[index]? = some (first :: others)[index] :=
      List.getElem?_eq_getElem inside
    refine ⟨(first :: others)[index], ?_, .inl (List.getElem_mem inside)⟩
    rw [List.isEmpty_cons, if_neg Bool.false_ne_true, apply_bind, pick_apply, picked]
    simp only [Except.mapError, Int.toNat_natCast, found, apply_pure]

/-- At the end of a conversation one of the final words is said, if numbers are shares. -/
theorem Handles.farewell_given (handled : e.Handles fragments c result after)
    (resumed : c.session.quit = false) (unit : c.source.DrawsInUnit)
    (held : e.rules.finals.length < countLimit) (finished : after.session.quit = true) :
    ∃ text, result = .ok text ∧ (text ∈ e.rules.finals ∨ e.rules.finals = [] ∧ text = "") := by
  obtain ⟨farewell, c₁, fruitless⟩ := (handled.quit_iff resumed).mp finished
  cases handled with
  | settled plan passed run ends =>
    rw [plan] at fruitless
    exact absurd fruitless (not_fruitless passed run ends c₁)
  | @parted c' _ _ passed _ bid =>
    obtain ⟨text, given, fits⟩ := pickText_given held (c := c'.ended)
      (passed.keeps lasting_unit unit)
    rw [← bidFarewell, bid] at given
    exact ⟨text, given, fits⟩
  | recalled _ stays => exact absurd farewell stays
  | unpicked _ stays => exact absurd farewell stays
  | fellBack _ stays => exact absurd farewell stays

/-- Nothing is tried before a farewell that comes first. -/
theorem agenda_of_farewell {fragment : String} {others : List String}
    (farewell : e.isFarewell fragment) : e.agenda (fragment :: others) = [] := by
  rw [agenda_cons, if_pos farewell]

end Engine

/-! Farewells of a script. -/

/-- The farewells are heard in small letters, and the final words are those of the script. -/
theorem Rules.compileSet_farewells {entries : List Script.Entry} {tables : Script} {s : RuleSet}
    (made : (compileSet entries tables).outcome = .ok s) :
    s.quits = tables.quits.map (fun q => String.ofList (Text.lower q.toList)) ∧
      s.finals = tables.finals := by
  simp only [compileSet, ruleSetOf, Log.Noted.outcome_bind, Log.Noted.outcome_ofExcept,
    Log.Noted.outcome_note, Log.Noted.outcome_pure, bind_eq_ok] at made
  obtain ⟨_, _, _, _, _, _, same⟩ := made
  cases same
  exact ⟨rfl, rfl⟩

/-- A conversation is over after an input just if a farewell is among its fragments and all rules
before it come to nothing, and then one of the final words is said. That is so whatever was said
before, if the farewell is the first fragment; and a farewell of the script that nothing breaks is. -/
theorem farewell_iff (entries : List Script.Entry) (tables : Script) (s : RuleSet)
    (made : (Rules.compileSet entries tables).outcome = .ok s) (holdable : s.Holdable)
    (source : RandomSource) (unit : source.DrawsInUnit) (settings : EngineSettings)
    (options : Options) (accepted : settings.check = .ok options) :
    ∃ e c, Engine.start s (.source source) settings = .ok (e, c) ∧
      (∀ f, e.isFarewell f ↔ ∃ q ∈ tables.quits, f = String.ofList (Text.lower q.toList)) ∧
      ∀ calls input result after, (e.reply input).apply (e.after c calls) = (result, after) →
        (after.session.quit = true ↔ (∃ f ∈ Fragment.split input, e.isFarewell f) ∧
          ∃ c', e.Fruitless (e.after c calls).resumed (e.agenda (Fragment.split input)) c') ∧
        (after.session.quit = true → ∃ text, result = .ok text ∧
          (text ∈ tables.finals ∨ tables.finals = [] ∧ text = "")) ∧
        ((Fragment.split input).head?.any e.isFarewell → after.session.quit = true) ∧
        (input ∈ tables.quits → Fragment.Plain (Text.lower input.toList) →
          after.session.quit = true) := by
  obtain ⟨⟨written, _, ready⟩, _, _⟩ := Rules.compileSet_ok made
  obtain ⟨quits, finals⟩ := Rules.compileSet_farewells made
  obtain ⟨_, i, _, found, _⟩ := ready.fallback
  have farewells (f : String) : Engine.isFarewell ⟨s, i, options⟩ f ↔
      ∃ q ∈ tables.quits, f = String.ofList (Text.lower q.toList) := by
    rw [Engine.isFarewell, quits, List.contains_iff_mem, List.mem_map]
    exact exists_congr fun q => and_congr_right fun _ => eq_comm
  refine ⟨_, _, Rules.start_eq_ok found accepted source, farewells, ?_⟩
  intro calls input result after said
  have able : Engine.Able ⟨s, i, options⟩ := ready.able found holdable
  have underway := Engine.after_underway able calls
    (c := ⟨source, .start s options.capacity, []⟩) ⟨unit, Int.natCast_nonneg _⟩
  have handled := Engine.reply_handles ⟨s, i, options⟩ input
    (Engine.after ⟨s, i, options⟩ ⟨source, .start s options.capacity, []⟩ calls)
  rw [said] at handled
  have finished := handled.quit_iff rfl
  have first (begins : (Fragment.split input).head?.any (Engine.isFarewell ⟨s, i, options⟩)) :
      after.session.quit = true := by
    cases fragments : Fragment.split input with
    | nil => simp [fragments] at begins
    | cons f others =>
      rw [fragments] at begins finished
      rw [Engine.agenda_of_farewell begins] at finished
      exact finished.mpr ⟨⟨f, List.mem_cons_self, begins⟩, _, .nil⟩
  refine ⟨finished, fun ended => ?_, first, fun member plain => first ?_⟩
  · rw [← finals]
    exact handled.farewell_given rfl underway.unit holdable.finals ended
  · rw [Fragment.split_plain plain]
    exact (farewells _).mpr ⟨input, member, rfl⟩

/-- A script of which one farewell is a word and the other one has a mark that breaks inputs. -/
def parting : Script :=
  { Script.empty with
    rules := [⟨Rules.fallbackKeyword, 0, [⟨"*", ["Go on."]⟩]⟩]
    quits := ["Quit", "bye!"], finals := ["Goodbye."] }

theorem parting_over : ∃ s e c, parting.compile.outcome = .ok s ∧ s.Holdable ∧
    halves.DrawsInUnit ∧ Engine.start s (.source halves) .default = .ok (e, c) ∧
    ∃ text, ((e.reply "Quit").apply c).1 = .ok text ∧ text ∈ parting.finals ∧
      ((e.reply "Quit").apply c).2.session.quit = true := by
  have checked : parting.compile.outcome.toOption.any fun s => decide s.Holdable := by
    decide +kernel
  obtain ⟨s, made, holdable⟩ := exists_of_any checked
  have holdable : s.Holdable := of_decide_eq_true holdable
  obtain ⟨e, c, started, _, replies⟩ := farewell_iff (parting.rules.map .rule) parting s made holdable
    halves halves_inUnit .default ⟨true, 20, 16, false⟩ rfl
  obtain ⟨_, given, _, ends⟩ := replies [] "Quit" _ _ Prod.mk.eta.symm
  have plain : Fragment.isPlain (Text.lower "Quit".toList) = true := by decide +kernel
  have finished := ends (by decide +kernel) (Fragment.plain_of_isPlain plain)
  obtain ⟨text, said, fits⟩ := given finished
  refine ⟨s, e, c, made, holdable, halves_inUnit, started, text, said, ?_, finished⟩
  rcases fits with member | ⟨nothing, _⟩
  · exact member
  · exact absurd nothing (List.cons_ne_nil _ _)

/-- What is replied to the first input with a script, and whether the conversation is over then. -/
def Script.firstReply? (s : Script) (input : String) : Option (List Char × Bool) :=
  match s.compile.outcome with
  | .error _ => none
  | .ok rules =>
    match Engine.start rules (.source halves) .default with
    | .error _ => none
    | .ok (e, c) =>
      match (e.reply input).apply c with
      | (.error _, _) => none
      | (.ok text, after) => some (text.toList, after.session.quit)

theorem of_firstReply? {script : Script} {input text : String} {finished : Bool}
    (replied : script.firstReply? input = some (text.toList, finished)) :
    ∃ s e c after, script.compile.outcome = .ok s ∧
      Engine.start s (.source halves) .default = .ok (e, c) ∧
      (e.reply input).apply c = (.ok text, after) ∧ after.session.quit = finished := by
  rw [Script.firstReply?] at replied
  split at replied
  · cases replied
  · next s made =>
    split at replied
    · cases replied
    · next e c started =>
      split at replied
      · cases replied
      · next text' after said =>
        obtain ⟨same, ended⟩ := Prod.mk.inj (Option.some.inj replied)
        cases String.toList_inj.mp same
        exact ⟨s, e, c, after, made, started, said, ended⟩

/-- A farewell with a mark is broken when it is said, so that the conversation goes on. -/
theorem bye_unheard : ∃ s e c after, parting.compile.outcome = .ok s ∧
    Engine.start s (.source halves) .default = .ok (e, c) ∧ "bye!" ∈ parting.quits ∧
    (e.reply "bye!").apply c = (.ok "Go on.", after) ∧ after.session.quit = false ∧
    "Go on." ∉ parting.finals := by
  have replied : parting.firstReply? "bye!" = some ("Go on.".toList, false) := by decide +kernel
  obtain ⟨s, e, c, after, made, started, said, ended⟩ := of_firstReply? replied
  exact ⟨s, e, c, after, made, started, by decide +kernel, said, ended, by decide +kernel⟩

end Colloquy
