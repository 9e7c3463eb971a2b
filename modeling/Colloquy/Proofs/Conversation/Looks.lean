import Colloquy.Proofs.Conversation.Hops
import Colloquy.Proofs.Conversation.Parallel

/-! The looks of replies: retouchings, the capital at the start, and whether choices are noted. What a
conversation keeps and draws does not depend on them, and the capital shows in the first letter only. -/

namespace Colloquy

/-- Whether two texts are the same, but that one may begin with a small Latin letter and the other with
its capital. -/
inductive Recased : String → String → Prop
  | same (text : String) : Recased text text
  | raised {c : Char} (small : c.isLower) (rest : List Char) :
    Recased (String.ofList (c :: rest)) (String.ofList (c.toUpper :: rest))
  | lowered {c : Char} (small : c.isLower) (rest : List Char) :
    Recased (String.ofList (c.toUpper :: rest)) (String.ofList (c :: rest))

/-- Whether two answers are the same but for the case of the first letter. -/
inductive RecasedAnswer : Except Failure (Option String) → Except Failure (Option String) → Prop
  | failed (f : Failure) : RecasedAnswer (.error f) (.error f)
  | silent : RecasedAnswer (.ok none) (.ok none)
  | said {text text' : String} (recased : Recased text text') :
    RecasedAnswer (.ok (some text)) (.ok (some text'))

theorem RecasedAnswer.refl (answer : Except Failure (Option String)) : RecasedAnswer answer answer := by
  rcases answer with f | _ | text
  · exact .failed f
  · exact .silent
  · exact .said (.same text)

namespace Retouch

open Text

theorem capitalOne_eq (c : Char) : capitalOne c = if c.isLower then c.toUpper else c := by
  have small : isSmallLatin c = c.isLower := rfl
  by_cases lower : c.isLower
  · have bounded : c.toNat < 123 := by
      simp only [← small, isSmallLatin, Bool.and_eq_true, decide_eq_true_eq] at lower
      omega
    have all : ∀ n < 123, capitalOne (Char.ofNat n) =
        if (Char.ofNat n).isLower then (Char.ofNat n).toUpper else Char.ofNat n := by decide
    have one := all c.toNat bounded
    rwa [Char.ofNat_toNat] at one
  · rw [capitalOne, small, if_neg lower, if_neg lower]

/-- A capital at the start changes the case of the first letter at most. -/
theorem recased_capitalize (text : List Char) :
    Recased (String.ofList text) (String.ofList (capitalize text)) ∧
      Recased (String.ofList (capitalize text)) (String.ofList text) := by
  cases text with
  | nil => exact ⟨.same _, .same _⟩
  | cons c rest =>
    rw [capitalize, capitalOne_eq]
    split
    · next small => exact ⟨.raised small rest, .lowered small rest⟩
    · exact ⟨.same _, .same _⟩

/-- With a capital and without, the last touches fail alike or give texts that differ in it at most. -/
theorem polish_recased (retouches : List Retouch) (capital capital' : Bool) (reply : String) :
    (∃ b, polish retouches capital reply = .error b ∧ polish retouches capital' reply = .error b) ∨
      ∃ text text', polish retouches capital reply = .ok text ∧
        polish retouches capital' reply = .ok text' ∧ Recased text text' := by
  simp only [polish, polishChars]
  cases retouches.foldlM (fun text r => r.apply text) (tidy reply.toList) with
  | error b => exact .inl ⟨b, rfl, rfl⟩
  | ok text =>
    obtain ⟨raised, lowered⟩ := recased_capitalize text
    refine .inr ⟨_, _, rfl, rfl, ?_⟩
    cases capital <;> cases capital'
    · exact .same _
    · exact raised
    · exact lowered
    · exact .same _

end Retouch

theorem Engine.polished_recased (e : Engine) (capitalize debug : Bool) (reply : String) :
    RecasedAnswer ((e.polished reply).map some)
      (((e.dressed e.rules.retouches capitalize debug).polished reply).map some) := by
  have looks : (e.dressed e.rules.retouches capitalize debug).polished reply =
      (Retouch.polish e.rules.retouches capitalize reply).mapError .breakdown := rfl
  rw [looks, Engine.polished]
  rcases Retouch.polish_recased e.rules.retouches e.options.capitalize capitalize reply with
    ⟨b, failed, failed'⟩ | ⟨text, text', given, given', recased⟩
  · rw [failed, failed']
    exact .failed _
  · rw [given, given']
    exact .said recased

/-- Scripts that differ in their retouchings make rule sets that do. -/
theorem Script.compile_retouched {script : Script} {retouches : List Script.Retouch} {s s' : RuleSet}
    (made : script.compile.outcome = .ok s)
    (made' : { script with retouches }.compile.outcome = .ok s') :
    s' = { s with retouches := s'.retouches } := by
  simp only [Script.compile, Rules.compileSet, Rules.ruleSetOf, Log.Noted.outcome_bind,
    Log.Noted.outcome_ofExcept, Log.Noted.outcome_note, Log.Noted.outcome_pure,
    bind_eq_ok] at made made'
  obtain ⟨rules, ready, _, _, _, _, same⟩ := made
  obtain ⟨rules', ready', _, _, _, _, same'⟩ := made'
  cases ready.symm.trans ready'
  cases same
  cases same'
  rfl

/-- Settings that differ in the capital and the notes at most are accepted alike. -/
theorem EngineSettings.check_looks {settings settings' : EngineSettings} {o : Options}
    (accepted : settings.check = .ok o) (capacity : settings'.capacity = settings.capacity)
    (hopLimit : settings'.hopLimit = settings.hopLimit) :
    settings'.check =
      .ok { o with capitalize := settings'.capitalize.isTruthy, debug := settings'.debug.isTruthy } := by
  obtain ⟨size, limit, held, bounded, rfl⟩ := check_ok accepted
  rw [check, capacity, held, hopLimit, bounded]
  rfl

/-- With scripts that differ in their retouchings at most, and settings that differ in the capital and
the notes at most, the same calls leave the same behind: the source of numbers, with the count of those
drawn, and the session, with its memory, its history and the mark of a farewell; and that also when a
retouching cannot be carried out. If the retouchings are the same, so are the answers but for the case of
the first letter. The fallback rule and the fresh history of the two rule sets are the same, as their
rules are. -/
theorem looks_apart (script : Script) (table : List Script.Retouch) (s s' : RuleSet)
    (made : script.compile.outcome = .ok s)
    (made' : { script with retouches := table }.compile.outcome = .ok s') (source : RandomSource)
    (settings settings' : EngineSettings) (options : Options)
    (accepted : settings.check = .ok options) (capacity : settings'.capacity = settings.capacity)
    (hopLimit : settings'.hopLimit = settings.hopLimit) :
    ∃ e e' c, Engine.start s (.source source) settings = .ok (e, c) ∧
      Engine.start s' (.source source) settings' = .ok (e', c) ∧
      ∀ calls, (e'.after c calls).source = (e.after c calls).source ∧
        (e'.after c calls).session = (e.after c calls).session ∧
        (s'.retouches = s.retouches →
          List.Forall₂ RecasedAnswer (e.answers c calls) (e'.answers c calls)) := by
  obtain ⟨⟨_, _, ready⟩, _, _⟩ := Rules.compileSet_ok made
  obtain ⟨_, i, _, found, _⟩ := ready.fallback
  have tables := Script.compile_retouched made made'
  have accepted' := EngineSettings.check_looks accepted capacity hopLimit
  have started := Rules.start_eq_ok found accepted source
  have found' : s'.fallback? = some i := by
    rw [tables]
    exact found
  have started' := Rules.start_eq_ok found' accepted' source
  have fresh : Session.start s' options.capacity = Session.start s options.capacity := by
    rw [tables]
    rfl
  rw [fresh] at started'
  refine ⟨_, _, _, started, started', fun calls => ?_⟩
  have dressed : (⟨s', i, { options with
        capitalize := settings'.capitalize.isTruthy, debug := settings'.debug.isTruthy }⟩ : Engine) =
      Engine.dressed ⟨s, i, options⟩ s'.retouches settings'.capitalize.isTruthy
        settings'.debug.isTruthy := by
    rw [Engine.dressed, ← tables]
  rw [dressed]
  obtain ⟨same, _⟩ := Engine.parallel_answers (e := ⟨s, i, options⟩) (fun _ _ => True)
    (fun _ => trivial) (fun _ => trivial) calls (.refl ⟨source, .start s options.capacity, []⟩)
  refine ⟨same.source, same.session, ?_⟩
  intro retouches
  rw [retouches]
  exact (Engine.parallel_answers RecasedAnswer RecasedAnswer.refl
    (Engine.polished_recased ⟨s, i, options⟩ _ _) calls (.refl _)).2

def mirror : Script :=
  { Script.empty with
    rules := [⟨"my", 1, [⟨"$ * my *", ["why your (2) ?"]⟩]⟩,
      ⟨Rules.fallbackKeyword, 0, [⟨"*", ["go on."]⟩]⟩]
    retouches := [⟨" \\?", "?"⟩] }

def bareSettings : EngineSettings :=
  { EngineSettings.default with capitalize := .bool false, debug := .bool true }

/-- The second table names a group that there is not, so that no retouching can be carried out. -/
theorem mirror_looks_apart : ∃ s s' e e' e₂ c, mirror.compile.outcome = .ok s ∧
    { mirror with retouches := [⟨"o", "\\g<name>"⟩] }.compile.outcome = .ok s' ∧
    Engine.start s (.source halves) .default = .ok (e, c) ∧
    Engine.start s' (.source halves) bareSettings = .ok (e', c) ∧
    (e'.after c [.reply "My dog.", .reply "So?"]).session =
      (e.after c [.reply "My dog.", .reply "So?"]).session ∧
    Engine.start s (.source halves) bareSettings = .ok (e₂, c) ∧
    List.Forall₂ RecasedAnswer (e.answers c [.reply "My dog.", .reply "So?"])
      (e₂.answers c [.reply "My dog.", .reply "So?"]) := by
  have checked : mirror.compile.outcome.toOption.any fun _ => true := by decide +kernel
  have checked' : { mirror with
      retouches := [⟨"o", "\\g<name>"⟩] }.compile.outcome.toOption.any fun _ => true := by
    decide +kernel
  obtain ⟨s, made, _⟩ := exists_of_any checked
  obtain ⟨s', made', _⟩ := exists_of_any checked'
  obtain ⟨e, e', c, started, started', same⟩ := looks_apart mirror _ s s' made made' halves
    .default bareSettings ⟨true, 20, 16, false⟩ rfl rfl rfl
  obtain ⟨_, e₂, _, again, started₂, alike⟩ := looks_apart mirror mirror.retouches s s made made
    halves .default bareSettings ⟨true, 20, 16, false⟩ rfl rfl rfl
  cases started.symm.trans again
  obtain ⟨_, session, _⟩ := same [.reply "My dog.", .reply "So?"]
  obtain ⟨_, _, recased⟩ := alike [.reply "My dog.", .reply "So?"]
  exact ⟨s, s', e, e', e₂, c, made, made', started, started', session, started₂, recased rfl⟩

end Colloquy
