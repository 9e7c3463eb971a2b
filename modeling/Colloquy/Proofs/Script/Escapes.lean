import Colloquy.Proofs.Rules.Rearranged
import Colloquy.Proofs.Script.Reports

/-! From data to a rule set: when it ends with a rule set or with a problem that is reported. -/

namespace Colloquy

open Log (Noted)

/-- Whether a text is no regular expression for a reason that is not a fault of it: a count that is too
large or has too many digits, or too many groups inside one another. -/
def Regex.Unreadable (source : String) (ignoreCase : Bool) : Prop :=
  ∃ why, Regex.Expression.parse source ignoreCase = .error why ∧ ∀ f place, why ≠ .fault f place

theorem Retouch.reports_ofRegexError {α : Type} (report : String → RuleProblem) (source : String)
    (why : Regex.Error) : Reports (.error (ofRegexError report source why) : Except Failure α) ↔
      ¬ ∀ f place, why ≠ .fault f place := by
  cases why with
  | fault f place => exact iff_of_true (reports_rules _) fun other => other f place rfl
  | countTooLarge => exact iff_of_false (not_reports_breakdown _) (not_not_intro nofun)
  | countTooLong => exact iff_of_false (not_reports_breakdown _) (not_not_intro nofun)
  | tooDeep => exact iff_of_false (not_reports_breakdown _) (not_not_intro nofun)

namespace Rules

variable {synonyms : List Pattern.Synonym}

theorem reports_compileExpression (source keyword written : String) (ignoreCase : Bool) :
    Reports (compileExpression source keyword written ignoreCase) ↔
      ¬ Regex.Unreadable source ignoreCase := by
  rw [compileExpression, Regex.Unreadable]
  cases Regex.Expression.parse source ignoreCase with
  | ok e => exact iff_of_true (reports_ok e) (by simp)
  | error why => simpa using Retouch.reports_ofRegexError _ source why

/-- Whether a decomposition has reassemblies and an expression that is not read. -/
def DecompositionUnreadable (synonyms : List Pattern.Synonym) (d : Script.Decomposition) : Prop :=
  d.reassemblies.isEmpty = false ∧ Regex.Unreadable (Pattern.compile synonyms d.pattern).source false

theorem reports_compileDecomposition (keyword : String) (d : Script.Decomposition) :
    Reports (compileDecomposition synonyms keyword d).outcome ↔
      ¬ DecompositionUnreadable synonyms d := by
  rw [compileDecomposition]
  split
  · next empty =>
    simp only [Noted.outcome_bind, Noted.outcome_fail]
    refine iff_of_true (reports_rules (.noReassemblies keyword d.pattern)) ?_
    rintro ⟨answered, _⟩
    exact absurd (answered.symm.trans empty) (by decide)
  · next answered =>
    simp only [Noted.outcome_bind, Noted.outcome_note, Noted.outcome_ofExcept, Noted.outcome_pure]
    have expression := reports_compileExpression (Pattern.compile synonyms d.pattern).source keyword
      d.pattern false
    have unreadable : DecompositionUnreadable synonyms d ↔
        Regex.Unreadable (Pattern.compile synonyms d.pattern).source false :=
      and_iff_right (by simpa using answered)
    rw [unreadable, ok_bind]
    exact reports_bind_done expression fun e => ⟨_, rfl⟩

/-- The ways in which a rule is not read: its keyword is no expression, or a decomposition of it that
comes before any that is refused. -/
inductive RuleUnreadable (synonyms : List Pattern.Synonym) (r : Script.Rule) : Prop
  | keyword (unread : Regex.Unreadable (matcherSource r.keyword) true)
  | decomposition {matcher : Regex.Expression}
    (read : compileExpression (matcherSource r.keyword) r.keyword r.keyword true = .ok matcher)
    (first : FirstOf (fun d => (compileDecomposition synonyms r.keyword d).outcome)
      (DecompositionUnreadable synonyms) r.decompositions)

/-- Making a rule ready ends in a report just if it can be read. -/
theorem reports_makeReady (r : Script.Rule) :
    Reports (makeReady synonyms r) ↔ ¬ RuleUnreadable synonyms r := by
  simp only [makeReady, compileRule, Noted.outcome_bind, Noted.outcome_ofExcept, Noted.outcome_mapM,
    Noted.outcome_pure]
  rw [reports_bind (reports_compileExpression _ _ _ _) fun matcher _ => reports_bind_done
    (reports_mapM (reports_compileDecomposition r.keyword) r.decompositions) fun ds => ⟨_, rfl⟩]
  refine not_congr ?_
  constructor
  · rintro (unread | ⟨matcher, read, first⟩)
    · exact .keyword unread
    · exact .decomposition read first
  · intro unreadable
    cases unreadable with
    | keyword unread => exact .inl unread
    | decomposition read first => exact .inr ⟨_, read, first⟩

theorem reports_checkFallback (rules : List Script.Rule) : Reports (checkFallback rules) := by
  rw [checkFallback]
  split
  · split
    · exact reports_ok ()
    · exact reports_rules _
  · exact reports_rules _

theorem reports_checkCycles (rules : List Rule) : Reports (checkCycles rules) := by
  rw [checkCycles]
  split
  · exact reports_rules _
  · exact reports_ok ()

/-- Making rules ready ends well or in a report, unless there is a fallback rule and the first rule that
fails is one that cannot be read. Once all rules are ready nothing but a cycle can be found, which is
reported. -/
theorem reports_compileRules (rules : List Script.Rule) :
    Reports (compileRules synonyms rules).outcome ↔ ¬ (checkFallback rules = .ok () ∧
      FirstOf (makeReady synonyms) (RuleUnreadable synonyms) rules) := by
  simp only [compileRules, Noted.outcome_bind, Noted.outcome_ofExcept, Noted.outcome_mapM,
    mapM_compileRule, Noted.outcome_note, Noted.outcome_pure]
  have always : Reports (checkFallback rules) ↔ ¬ False :=
    iff_of_true (reports_checkFallback rules) not_false
  have linked (compiled : List Rule) : Reports (do
      checkCycles (resolve (arrange compiled))
      Except.ok ()
      Except.ok (resolve (arrange compiled)) : Except Failure (List Rule)) ↔ ¬ False :=
    reports_bind_done (iff_of_true (reports_checkCycles _) not_false) fun _ => ⟨_, rfl⟩
  have ready := (reports_map (rules.mapM (makeReady synonyms)) placed).trans
    (reports_mapM reports_makeReady rules)
  refine (reports_bind always fun _ _ => reports_bind ready fun compiled _ => linked compiled).trans ?_
  refine not_congr ?_
  constructor
  · rintro (⟨⟨⟩⟩ | ⟨_, fallback, first | ⟨_, _, ⟨⟩⟩⟩)
    exact ⟨fallback, first⟩
  · rintro ⟨fallback, first⟩
    exact .inr ⟨(), fallback, .inl first⟩

theorem reports_checkReferences (r : Script.Retouch) (groups : Nat) (references : List (List Char)) :
    Reports (Retouch.checkReferences r groups references) ↔
      ¬ FirstOf (fun digits => Retouch.checkReferences r groups [digits])
        (fun digits => Text.natural? digits = none) references := by
  induction references with
  | nil => exact iff_of_true (reports_ok ()) firstOf_nil
  | cons digits rest ih =>
    rw [firstOf_cons, Retouch.checkReferences]
    cases read : Text.natural? digits with
    | none => exact iff_of_false (not_reports_breakdown _) (by simp)
    | some group =>
      dsimp only
      split
      · next missing =>
        refine iff_of_true (reports_rules _) ?_
        rintro (⟨⟨⟩⟩ | ⟨_, there, _⟩)
        rw [Retouch.checkReferences, read] at there
        dsimp only at there
        rw [if_pos missing] at there
        contradiction
      · next there =>
        have one : Retouch.checkReferences r groups [digits] = .ok () := by
          rw [Retouch.checkReferences, read]
          exact if_neg there
        rw [ih, one]
        simp

/-- The ways in which a retouching is not read: its pattern is no expression, or a reference of its
replacement to a group has too many digits and comes before any to a group that there is not. -/
inductive RetouchUnreadable (r : Script.Retouch) : Prop
  | pattern (unread : Regex.Unreadable r.pattern false)
  | reference {e : Regex.Expression} (read : Regex.Expression.parse r.pattern false = .ok e)
    (first : FirstOf (fun digits => Retouch.checkReferences r e.groups [digits])
      (fun digits => Text.natural? digits = none) (Retouch.references r.replacement.toList))

/-- Making a retouching ready ends in a report just if it can be read. -/
theorem reports_compileRetouch (r : Script.Retouch) :
    Reports (Retouch.compile r) ↔ ¬ RetouchUnreadable r := by
  rw [Retouch.compile]
  cases read : Regex.Expression.parse r.pattern false with
  | error why =>
    dsimp only
    rw [Retouch.reports_ofRegexError]
    refine not_congr ⟨fun other => .pattern ⟨why, read, other⟩, fun unreadable => ?_⟩
    cases unreadable with
    | pattern unread =>
      obtain ⟨why', read', other⟩ := unread
      cases read.symm.trans read'
      exact other
    | reference read' _ => cases read.symm.trans read'
  | ok e =>
    dsimp only
    have references := reports_checkReferences r e.groups (Retouch.references r.replacement.toList)
    refine (reports_bind_done references fun _ => ⟨_, rfl⟩).trans ?_
    refine not_congr ⟨.reference read, fun unreadable => ?_⟩
    cases unreadable with
    | pattern unread =>
      obtain ⟨_, read', _⟩ := unread
      cases read.symm.trans read'
    | reference read' first =>
      cases read.symm.trans read'
      exact first

end Rules

namespace Script

/-- The ways in which a script that has been read is not made into a rule set. -/
inductive Unreadable (s : Script) : Prop
  | rule (fallback : Rules.checkFallback s.rules = .ok ())
    (first : FirstOf (Rules.makeReady s.synonyms) (Rules.RuleUnreadable s.synonyms) s.rules)
  | retouch {rules : List Rules.Rule} (ready : (Rules.compileRules s.synonyms s.rules).outcome = .ok rules)
    (first : FirstOf Retouch.compile Rules.RetouchUnreadable s.retouches)

/-- Making a script ready ends in a report just if all that comes before can be read. -/
theorem reports_compile (s : Script) : Reports s.compile.outcome ↔ ¬ s.Unreadable := by
  have written : (s.rules.map Entry.rule).mapM Entry.toRule = .ok s.rules := mapM_map_ok fun _ _ => rfl
  simp only [compile, Rules.compileSet, Rules.compileEntries, Rules.ruleSetOf, Noted.outcome_bind,
    Noted.outcome_ofExcept, Noted.outcome_note, Noted.outcome_pure, written, ok_bind]
  have retouches := reports_mapM Rules.reports_compileRetouch s.retouches
  refine (reports_bind (Rules.reports_compileRules s.rules) fun rules _ =>
    reports_bind_done retouches fun _ => ⟨_, rfl⟩).trans ?_
  refine not_congr ?_
  constructor
  · rintro (⟨fallback, first⟩ | ⟨rules, ready, first⟩)
    · exact .rule fallback first
    · exact .retouch ready first
  · intro unreadable
    cases unreadable with
    | rule fallback first => exact .inl ⟨fallback, first⟩
    | retouch ready first => exact .inr ⟨_, ready, first⟩

end Script

namespace RuleSet

def ofData (value : Data) : Except Failure RuleSet := do
  (← Script.ofData value).compile.outcome

/-- The ways in which the making of a rule set from data escapes. -/
inductive Escapes (value : Data) : Prop
  | reading {entries : List (Data × Data)} (map : value.entries? = some entries)
    (first : FirstOf (Script.Stage.read entries) (Script.Stage.Escapes entries) Script.Stage.all)
  | compiling {s : Script} (read : Script.ofData value = .ok s) (unreadable : s.Unreadable)

/-- From data comes a rule set or a reported problem of the script, just if nothing escapes. -/
theorem reports_ofData_iff (value : Data) : Reports (ofData value) ↔ ¬ Escapes value := by
  rw [ofData, reports_bind (Script.reports_ofData value) fun s _ => Script.reports_compile s]
  refine not_congr ?_
  constructor
  · rintro (⟨entries, map, first⟩ | ⟨s, read, unreadable⟩)
    · exact .reading map first
    · exact .compiling read unreadable
  · intro escapes
    cases escapes with
    | reading map first => exact .inl ⟨_, map, first⟩
    | compiling read unreadable => exact .inr ⟨_, read, unreadable⟩

/-- Data with a rule in the form of a map, of which the decompositions are a number. -/
def numbered : Data :=
  .map [(.text "keywords", .list [.map [(.text "keyword", .text "a"), (.text "decompositions", .int 5)]])]

theorem numbered_escapes :
    ofData numbered = .error (.breakdown .wrongKind) ∧ ¬ Reports (ofData numbered) := by
  have failed : ofData numbered = .error (.breakdown .wrongKind) := rfl
  refine ⟨failed, ?_⟩
  rw [failed]
  exact not_reports_breakdown _

end RuleSet
end Colloquy
