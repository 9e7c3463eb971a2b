import Colloquy.Proofs.Data
import Colloquy.Proofs.Script.Reading
import Colloquy.Proofs.Told

/-! When the reading of a script ends with a script or with a problem that is reported. Anything else
escapes: a value that has no parts where parts are looked for, and a value that has no text where it is
made into one, or where a problem would show it. -/

namespace Colloquy

variable {α β : Type} {P : Prop}

/-- Whether work ends with a result, or with a problem that is reported as one of a script. -/
def Reports (x : Except Failure α) : Prop :=
  (∃ a, x = .ok a) ∨ ∃ p, x = .error (.reported p) ∧ .script ∈ p.report.family.ancestry

/-- Whether a problem shows a value that has no text. -/
def ScriptProblem.Hidden (p : ScriptProblem) : Prop := ∃ value ∈ p.shownValues, value.isShowable = false

theorem reports_ok (a : α) : Reports (.ok a) := told_ok a

theorem not_reports_breakdown (b : Breakdown) : ¬ Reports (.error (.breakdown b) : Except Failure α) :=
  not_told_breakdown b

theorem reports_rules (p : RuleProblem) : Reports (.error (.rules p) : Except Failure α) := by
  refine .inr ⟨.rules p, rfl, ?_⟩
  have family : p.report.family = .rules := by cases p <;> rfl
  rw [Problem.report, family]
  decide

theorem reports_script (p : ScriptProblem) :
    Reports (.error (.script p) : Except Failure α) ↔ ¬ p.Hidden := by
  have family : p.report.family = .script := by cases p <;> rfl
  refine told_because (p := .script p) ?_
  rw [Problem.report, family]
  decide

/-- Two steps end in a report unless the first escapes, or is done and then the second escapes. -/
theorem reports_bind {x : Except Failure α} {f : α → Except Failure β} {Q : α → Prop}
    (first : Reports x ↔ ¬ P) (next : ∀ a, x = .ok a → (Reports (f a) ↔ ¬ Q a)) :
    Reports (x >>= f) ↔ ¬ (P ∨ ∃ a, x = .ok a ∧ Q a) := told_bind first next

theorem reports_bind_done {x : Except Failure α} {f : α → Except Failure β}
    (first : Reports x ↔ ¬ P) (next : ∀ a, ∃ b, f a = .ok b) : Reports (x >>= f) ↔ ¬ P :=
  told_bind_done first next

theorem reports_map (x : Except Failure α) (f : α → β) : Reports (x.map f) ↔ Reports x := told_map x f

/-- Work on some things escapes just where the first that is not refused before does. -/
theorem reports_mapM {f : α → Except Failure β} {escapes : α → Prop}
    (each : ∀ a, Reports (f a) ↔ ¬ escapes a) (l : List α) :
    Reports (l.mapM f) ↔ ¬ FirstOf f escapes l := told_mapM each l

namespace Data

/-- Whether a value stands for something but has no parts: it is true, a number or a time. -/
inductive IsSolid : Data → Prop
  | yes : IsSolid (.bool true)
  | int {i : Int} (nonzero : i ≠ 0) : IsSolid (.int i)
  | float {x : Double} (nonzero : x.isZero = false) : IsSolid (.float x)
  | stamp (s : Stamp) : IsSolid (.stamp s)
  | shared {mark : Mark} {value : Data} (solid : value.IsSolid) : IsSolid (.shared mark value)

variable {value : Data}

theorem pairs_eq_nil {pairs : List (Data × Data)} (nothing : value.isTruthy = false)
    (apart : value.pairs? = some pairs) : pairs = [] := by
  rw [pairs?] at apart
  split at apart
  · next entries found =>
    cases apart
    exact entries_eq_nil nothing found
  · obtain ⟨items, found, all⟩ := Option.bind_eq_some_iff.mp apart
    rw [items_eq_nil nothing found] at all
    exact (Option.some.inj all).symm

end Data

namespace Script

open Data (IsSolid)
open Pattern (Synonym)

/-! Texts and parts of values. -/

theorem reports_textOf (value : Data) : Reports (textOf value) ↔ ¬ value.isShowable = false := by
  rw [textOf, Data.plain?]
  cases value.isShowable with
  | true => exact iff_of_true (reports_ok _) (by decide)
  | false => exact iff_of_false (not_reports_breakdown _) (by decide)

theorem reports_partsOf_some : ∀ value : Data, Reports (partsOf (some value)) ↔ ¬ value.IsSolid
  | .shared mark value => by
    have same : partsOf (some (.shared mark value)) = partsOf (some value) := rfl
    rw [same, reports_partsOf_some value]
    refine not_congr ⟨.shared, fun solid => ?_⟩
    cases solid with
    | shared solid => exact solid
  | .bool true => iff_of_false (not_reports_breakdown _) (not_not_intro .yes)
  | .bool false => iff_of_true (reports_ok _) fun solid => by cases solid
  | .int i => by
    by_cases zero : i = 0
    · subst zero
      refine iff_of_true (reports_ok _) fun solid => ?_
      cases solid with
      | int nonzero => exact nonzero rfl
    · have failed : partsOf (some (.int i)) = .error (.breakdown .wrongKind) := by
        simp [partsOf, Data.isTruthy, Data.parts?, Data.bare, zero]
      rw [failed]
      exact iff_of_false (not_reports_breakdown _) (not_not_intro (.int zero))
  | .float x => by
    cases zero : x.isZero with
    | true =>
      have done : partsOf (some (.float x)) = .ok [] := by simp [partsOf, Data.isTruthy, zero]
      rw [done]
      refine iff_of_true (reports_ok _) fun solid => ?_
      cases solid with
      | float nonzero => simp [zero] at nonzero
    | false =>
      have failed : partsOf (some (.float x)) = .error (.breakdown .wrongKind) := by
        simp [partsOf, Data.isTruthy, Data.parts?, Data.bare, zero]
      rw [failed]
      exact iff_of_false (not_reports_breakdown _) (not_not_intro (.float zero))
  | .stamp s => iff_of_false (not_reports_breakdown _) (not_not_intro (.stamp s))
  | .null => iff_of_true (reports_ok _) fun solid => by cases solid
  | .text _ | .bytes _ | .pair _ _ | .list _ | .map _ | .set _ => by
    refine iff_of_true ?_ fun solid => by cases solid
    rw [partsOf]
    split
    · exact reports_ok _
    · exact reports_ok _

theorem reports_partsOf (part : Option Data) :
    Reports (partsOf part) ↔ ¬ ∃ value, part = some value ∧ value.IsSolid := by
  cases part with
  | none => exact iff_of_true (reports_ok []) (by simp)
  | some value => simpa using reports_partsOf_some value

/-! Sections. One that is not of the right shape is reported; what is in it may escape. -/

/-- Whether something holds of what a section is taken apart into. -/
def SectionHas (apart? : Data → Option (List α)) (holds : List α → Prop) (value? : Option Data) : Prop :=
  ∃ value, value? = some value ∧ ∃ parts, apart? value = some parts ∧ holds parts

section

variable {apart? : Data → Option (List α)} {problem : ScriptProblem}
  (nothing : ∀ value parts, value.isTruthy = false → apart? value = some parts → parts = [])
  (plain : problem.shownValues = [])

include plain in
theorem reports_sectionOf (value? : Option Data) : Reports (sectionOf apart? problem value?) := by
  cases value? with
  | none => exact reports_ok []
  | some value =>
    rw [sectionOf]
    split
    · exact reports_ok []
    · split
      · exact reports_ok _
      · rw [reports_script, ScriptProblem.Hidden, plain]
        simp

include nothing plain

/-- A section escapes just where what it is taken apart into does. -/
theorem reports_section {f : α → Except Failure β} {escapes : α → Prop}
    (each : ∀ a, Reports (f a) ↔ ¬ escapes a) (value? : Option Data) :
    Reports (sectionOf apart? problem value? >>= (·.mapM f)) ↔
      ¬ SectionHas apart? (FirstOf f escapes) value? := by
  have always : Reports (sectionOf apart? problem value?) ↔ ¬ False :=
    iff_of_true (reports_sectionOf plain value?) not_false
  rw [reports_bind always fun parts _ => reports_mapM each parts]
  refine not_congr ?_
  constructor
  · rintro (⟨⟨⟩⟩ | ⟨parts, done, first⟩)
    cases value? with
    | none =>
      cases done
      exact absurd first firstOf_nil
    | some value =>
      rw [sectionOf] at done
      split at done
      · cases done
        exact absurd first firstOf_nil
      · split at done
        · next found apart =>
          cases done
          exact ⟨value, rfl, _, apart, first⟩
        · contradiction
  · rintro ⟨value, rfl, parts, apart, first⟩
    refine .inr ⟨parts, ?_, first⟩
    cases truthy : value.isTruthy with
    | false =>
      rw [nothing value parts truthy apart] at first
      exact absurd first firstOf_nil
    | true => simp [sectionOf, truthy, apart]

end

/-! Texts, pairs and retouchings. -/

def TextsEscape (items : List Data) : Prop := ∃ item ∈ items, item.isShowable = false

theorem textOf_or (value : Data) : value.isShowable = false ∨ ∃ text, textOf value = .ok text := by
  rw [textOf, Data.plain?]
  cases value.isShowable with
  | true => exact .inr ⟨_, rfl⟩
  | false => exact .inl rfl

theorem reports_textsOf (part : String) (value? : Option Data) :
    Reports (textsOf part value?) ↔ ¬ SectionHas Data.items? TextsEscape value? := by
  have any : FirstOf textOf (·.isShowable = false) = TextsEscape :=
    funext fun _ => propext (firstOf_iff_exists textOf_or)
  rw [textsOf_eq, ← any]
  exact reports_section (fun _ _ => Data.items_eq_nil) rfl reports_textOf value?

def PairsEscape (pairs : List (Data × Data)) : Prop :=
  ∃ p ∈ pairs, p.1.isShowable = false ∨ p.2.isShowable = false

theorem reports_both {γ : Type} (first second : Data) (f : String → String → γ) :
    Reports (do return f (← textOf first) (← textOf second)) ↔
      ¬ (first.isShowable = false ∨ second.isShowable = false) := by
  have next (text : String) : Reports (do return f text (← textOf second)) ↔
      ¬ second.isShowable = false :=
    reports_bind_done (reports_textOf second) fun other => ⟨f text other, rfl⟩
  rw [reports_bind (reports_textOf first) fun text _ => next text]
  refine not_congr ?_
  constructor
  · rintro (hidden | ⟨_, _, hidden⟩)
    · exact .inl hidden
    · exact .inr hidden
  · rintro (hidden | hidden)
    · exact .inl hidden
    · rcases textOf_or first with hidden | ⟨text, done⟩
      · exact .inl hidden
      · exact .inr ⟨text, done, hidden⟩

theorem reports_substitutionOf (p : Data × Data) : Reports (substitutionOf p) ↔
    ¬ (p.1.isShowable = false ∨ p.2.isShowable = false) :=
  reports_both p.1 p.2 Substitution.mk

theorem substitutionOf_or (p : Data × Data) :
    (p.1.isShowable = false ∨ p.2.isShowable = false) ∨ ∃ s, substitutionOf p = .ok s := by
  rcases textOf_or p.1 with hidden | ⟨word, first⟩
  · exact .inl (.inl hidden)
  · rcases textOf_or p.2 with hidden | ⟨replacement, second⟩
    · exact .inl (.inr hidden)
    · refine .inr ⟨⟨word, replacement⟩, ?_⟩
      rw [substitutionOf, first, second]
      rfl

theorem reports_substitutionsOf (part : String) (value? : Option Data) :
    Reports (substitutionsOf part value?) ↔ ¬ SectionHas Data.pairs? PairsEscape value? := by
  have any : FirstOf substitutionOf (fun p => p.1.isShowable = false ∨ p.2.isShowable = false) =
      PairsEscape := funext fun _ => propext (firstOf_iff_exists substitutionOf_or)
  rw [substitutionsOf_eq, ← any]
  exact reports_section (fun _ _ => Data.pairs_eq_nil) rfl reports_substitutionOf value?

def RetouchEscapes (item : Data) : Prop :=
  match item.entries?.bind (Data.field? "pattern"), item.two? with
  | some pattern, _ =>
    pattern.isShowable = false ∨
      ((item.entries?.bind (Data.field? "replacement")).getD (.text "")).isShowable = false
  | none, some (pattern, replacement) => pattern.isShowable = false ∨ replacement.isShowable = false
  | none, none => item.isShowable = false

theorem reports_hidden {p : ScriptProblem} {value : Data} (shows : p.shownValues = [value]) :
    Reports (.error (.script p) : Except Failure α) ↔ ¬ value.isShowable = false := by
  rw [reports_script, ScriptProblem.Hidden, shows]
  simp

theorem reports_retouchOf (item : Data) : Reports (retouchOf item) ↔ ¬ RetouchEscapes item := by
  rw [retouchOf, RetouchEscapes]
  cases item.entries?.bind (Data.field? "pattern") with
  | some pattern => exact reports_both _ _ _
  | none =>
    cases item.two? with
    | some parts => exact reports_both _ _ _
    | none => exact reports_hidden rfl

theorem reports_retouchesOf (value? : Option Data) : Reports (retouchesOf value?) ↔
    ¬ SectionHas Data.items? (FirstOf retouchOf RetouchEscapes) value? := by
  rw [retouchesOf_eq]
  exact reports_section (fun _ _ => Data.items_eq_nil) rfl reports_retouchOf value?

/-! Synonyms. -/

/-- The ways in which the synonyms of a word escape. -/
inductive SynonymEscapes (entry : Data × Data) : Prop
  | word (hidden : entry.1.isShowable = false)
  | solid (solid : entry.2.IsSolid)
  | equivalent {parts : List Data} (apart : partsOf (some entry.2) = .ok parts)
    (hidden : TextsEscape parts)

theorem reports_synonymOf (entry : Data × Data) :
    Reports (synonymOf entry) ↔ ¬ SynonymEscapes entry := by
  have equivalents (word : String) (parts : List Data) :
      Reports (do return (⟨word, ← parts.mapM textOf⟩ : Synonym)) ↔
        ¬ FirstOf textOf (·.isShowable = false) parts :=
    reports_bind_done (reports_mapM reports_textOf parts) fun texts => ⟨⟨word, texts⟩, rfl⟩
  have rest (word : String) : Reports (do
      return (⟨word, ← (← partsOf (some entry.2)).mapM textOf⟩ : Synonym)) ↔ _ :=
    reports_bind (reports_partsOf_some entry.2) fun parts _ => equivalents word parts
  rw [synonymOf, reports_bind (reports_textOf entry.1) fun word _ => rest word]
  simp only [firstOf_iff_exists textOf_or]
  refine not_congr ?_
  constructor
  · rintro (hidden | ⟨_, _, solid | ⟨parts, apart, hidden⟩⟩)
    · exact .word hidden
    · exact .solid solid
    · exact .equivalent apart hidden
  · intro escapes
    rcases textOf_or entry.1 with hidden | ⟨word, done⟩
    · exact .inl hidden
    · refine .inr ⟨word, done, ?_⟩
      cases escapes with
      | word hidden =>
        rw [textOf, Data.plain?, hidden] at done
        contradiction
      | solid solid => exact .inl solid
      | equivalent apart hidden => exact .inr ⟨_, apart, hidden⟩

/-! Keyword rules. -/

theorem reports_reported {x : Except ScriptProblem α} :
    Reports (reported x) ↔ ¬ ∃ p, x = .error p ∧ p.Hidden := by
  cases x with
  | ok a => exact iff_of_true (reports_ok a) (by simp)
  | error p => simpa [reported] using reports_script p

def DecompositionEscapes (d : Data) : Prop :=
  match d.entries?.bind (Data.field? "pattern") with
  | some _ => ∃ value, d.entries?.bind (Data.field? "reassemblies") = some value ∧ value.IsSolid
  | none => d.isShowable = false

theorem RawDecomposition.reports_ofMap (keyword d : Data) :
    Reports (ofMap keyword d) ↔ ¬ DecompositionEscapes d := by
  rw [ofMap, DecompositionEscapes]
  cases d.entries? with
  | none => exact reports_hidden rfl
  | some entries =>
    dsimp only [Option.bind_some]
    cases Data.field? "pattern" entries with
    | none => exact reports_hidden rfl
    | some pattern => exact reports_bind_done (reports_partsOf _) fun parts => ⟨⟨pattern, parts⟩, rfl⟩

/-- The ways in which a keyword rule in the form of a list escapes: a report of what is wrong with it
cannot be made. -/
inductive ListRuleEscapes (entry : Data) : Prop
  | malformed {why : EntryFault} (fault : RawRule.ofList entry = .error why)
    (hidden : entry.isShowable = false)
  | refused {raw : RawRule} {p : ScriptProblem} (made : RawRule.ofList entry = .ok raw)
    (fault : raw.check = .error p) (hidden : p.Hidden)

/-- The ways in which a keyword rule in the form of a map escapes: its decompositions have no parts, one
of them escapes before any is refused, or a report of what is wrong with it cannot be made. -/
inductive MapRuleEscapes (entries : List (Data × Data)) (keyword : Data) : Prop
  | solid {value : Data} (part : Data.field? "decompositions" entries = some value)
    (solid : value.IsSolid)
  | decomposition {parts : List Data}
    (apart : partsOf (Data.field? "decompositions" entries) = .ok parts)
    (first : FirstOf (RawDecomposition.ofMap keyword) DecompositionEscapes parts)
  | refused {parts : List Data} {ds : List RawDecomposition} {p : ScriptProblem}
    (apart : partsOf (Data.field? "decompositions" entries) = .ok parts)
    (made : parts.mapM (RawDecomposition.ofMap keyword) = .ok ds)
    (fault : RawRule.check ⟨keyword, (Data.field? "rank" entries).getD (.int 0), ds⟩ = .error p)
    (hidden : p.Hidden)

def RuleEscapes (entry : Data) : Prop :=
  match entry.entries? with
  | some entries =>
    match Data.field? "keyword" entries with
    | some keyword => MapRuleEscapes entries keyword
    | none => entry.isShowable = false
  | none => ListRuleEscapes entry

theorem reports_ruleOfList (entry : Data) : Reports (Rule.ofList entry) ↔ ¬ ListRuleEscapes entry := by
  rw [Rule.ofList]
  cases made : RawRule.ofList entry with
  | ok raw =>
    dsimp only
    rw [reports_reported]
    refine not_congr ⟨fun ⟨p, fault, hidden⟩ => .refused made fault hidden, fun escapes => ?_⟩
    cases escapes with
    | malformed fault _ => cases fault.symm.trans made
    | refused made' fault hidden =>
      cases made.symm.trans made'
      exact ⟨_, fault, hidden⟩
  | error why =>
    dsimp only
    rw [reports_hidden rfl]
    refine not_congr ⟨.malformed made, fun escapes => ?_⟩
    cases escapes with
    | malformed _ hidden => exact hidden
    | refused made' _ _ => cases made.symm.trans made'

theorem reports_ruleOfMap {entry : Data} {entries : List (Data × Data)} {keyword : Data}
    (map : entry.entries? = some entries) (named : Data.field? "keyword" entries = some keyword) :
    Reports (Rule.ofMap entry) ↔ ¬ MapRuleEscapes entries keyword := by
  rw [Rule.ofMap, map]
  dsimp only
  rw [named]
  dsimp only
  rw [reports_bind (reports_partsOf _) fun parts _ =>
    reports_bind (reports_mapM (RawDecomposition.reports_ofMap keyword) parts) fun ds _ =>
      reports_reported]
  refine not_congr ?_
  constructor
  · rintro (⟨value, part, solid⟩ | ⟨parts, apart, first | ⟨ds, made, p, fault, hidden⟩⟩)
    · exact .solid part solid
    · exact .decomposition apart first
    · exact .refused apart made fault hidden
  · intro escapes
    cases escapes with
    | solid part solid => exact .inl ⟨_, part, solid⟩
    | decomposition apart first => exact .inr ⟨_, apart, .inl first⟩
    | refused apart made fault hidden => exact .inr ⟨_, apart, .inr ⟨_, made, _, fault, hidden⟩⟩

/-- Reading a keyword rule ends in a report just if the rule does not escape. -/
theorem reports_ruleOfData (entry : Data) : Reports (Rule.ofData entry) ↔ ¬ RuleEscapes entry := by
  rw [Rule.ofData, RuleEscapes]
  cases map : entry.entries? with
  | none => exact reports_ruleOfList entry
  | some entries =>
    rw [Option.isSome_some, if_pos rfl]
    dsimp only
    cases named : Data.field? "keyword" entries with
    | some keyword => exact reports_ruleOfMap map named
    | none =>
      rw [Rule.ofMap, map]
      dsimp only
      rw [named]
      exact reports_hidden rfl

/-! All of a script. -/

/-- What is read of a script. -/
inductive Stage where
  | keywordShape
  | synonymShape
  | rules
  | synonyms
  | pres
  | posts
  | retouches
  | quits
  | initials
  | finals

namespace Stage

def all : List Stage :=
  [keywordShape, synonymShape, rules, synonyms, pres, posts, retouches, quits, initials, finals]

def read (entries : List (Data × Data)) : Stage → Except Failure Unit
  | keywordShape => discarded (sectionOf Data.items? .keywordsNotList (Data.field? "keywords" entries))
  | synonymShape =>
    discarded (sectionOf Data.entries? .synonymsNotMapping (Data.field? "synonyms" entries))
  | rules =>
    discarded (sectionOf Data.items? .keywordsNotList (Data.field? "keywords" entries) >>=
      (·.mapM Rule.ofData))
  | synonyms =>
    discarded (sectionOf Data.entries? .synonymsNotMapping (Data.field? "synonyms" entries) >>=
      (·.mapM synonymOf))
  | pres => discarded (substitutionsOf "pres" (Data.field? "pres" entries))
  | posts => discarded (substitutionsOf "posts" (Data.field? "posts" entries))
  | retouches => discarded (retouchesOf (Data.field? "post_transforms" entries))
  | quits => discarded (textsOf "quits" (Data.field? "quits" entries))
  | initials => discarded (textsOf "initials" (Data.field? "initials" entries))
  | finals => discarded (textsOf "finals" (Data.field? "finals" entries))
where
  discarded {α : Type} (x : Except Failure α) : Except Failure Unit := x.map fun _ => ()

def Escapes (entries : List (Data × Data)) : Stage → Prop
  | keywordShape => False
  | synonymShape => False
  | rules => SectionHas Data.items? (FirstOf Rule.ofData RuleEscapes) (Data.field? "keywords" entries)
  | synonyms =>
    SectionHas Data.entries? (FirstOf synonymOf SynonymEscapes) (Data.field? "synonyms" entries)
  | pres => SectionHas Data.pairs? PairsEscape (Data.field? "pres" entries)
  | posts => SectionHas Data.pairs? PairsEscape (Data.field? "posts" entries)
  | retouches =>
    SectionHas Data.items? (FirstOf retouchOf RetouchEscapes) (Data.field? "post_transforms" entries)
  | quits => SectionHas Data.items? TextsEscape (Data.field? "quits" entries)
  | initials => SectionHas Data.items? TextsEscape (Data.field? "initials" entries)
  | finals => SectionHas Data.items? TextsEscape (Data.field? "finals" entries)

end Stage

theorem reports_stage {x : Except Failure α} {f : α → Except Failure β} {stage : Stage}
    {rest : List Stage} {entries : List (Data × Data)}
    (reads : stage.read entries = Stage.read.discarded x) (first : Reports x ↔ ¬ stage.Escapes entries)
    (next : ∀ a, x = .ok a →
      (Reports (f a) ↔ ¬ FirstOf (Stage.read entries) (Stage.Escapes entries) rest)) :
    Reports (x >>= f) ↔
      ¬ FirstOf (Stage.read entries) (Stage.Escapes entries) (stage :: rest) := by
  rw [reports_bind first next, firstOf_cons]
  refine not_congr (or_congr_right ?_)
  constructor
  · rintro ⟨a, done, later⟩
    exact ⟨(), by rw [reads, done]; rfl, later⟩
  · rintro ⟨_, done, later⟩
    cases x with
    | ok a => exact ⟨a, rfl, later⟩
    | error f =>
      rw [reads] at done
      contradiction

/-- Reading a script stage by stage ends in a report just if no stage escapes that is reached. -/
theorem reports_ofEntries (entries : List (Data × Data)) : Reports (ofEntries entries) ↔
    ¬ FirstOf (Stage.read entries) (Stage.Escapes entries) Stage.all := by
  have shape {α : Type} {x : Except Failure α} (reports : Reports x) : Reports x ↔ ¬ False :=
    iff_of_true reports not_false
  rw [ofEntries, Stage.all]
  refine reports_stage rfl (shape (reports_sectionOf rfl _)) fun keywords keywordsRead => ?_
  refine reports_stage rfl (shape (reports_sectionOf rfl _)) fun groups groupsRead => ?_
  have rules : Reports (keywords.mapM Rule.ofData) ↔ ¬ Stage.rules.Escapes entries := by
    have plain : ScriptProblem.keywordsNotList.shownValues = [] := rfl
    have sections := reports_section (fun _ _ => Data.items_eq_nil) plain reports_ruleOfData
      (Data.field? "keywords" entries)
    rw [keywordsRead] at sections
    exact sections
  have synonyms : Reports (groups.mapM synonymOf) ↔ ¬ Stage.synonyms.Escapes entries := by
    have plain : ScriptProblem.synonymsNotMapping.shownValues = [] := rfl
    have sections := reports_section (fun _ _ => Data.entries_eq_nil) plain reports_synonymOf
      (Data.field? "synonyms" entries)
    rw [groupsRead] at sections
    exact sections
  refine reports_stage (by rw [Stage.read, keywordsRead]; rfl) rules fun _ _ => ?_
  refine reports_stage (by rw [Stage.read, groupsRead]; rfl) synonyms fun _ _ => ?_
  refine reports_stage rfl (reports_substitutionsOf _ _) fun _ _ => ?_
  refine reports_stage rfl (reports_substitutionsOf _ _) fun _ _ => ?_
  refine reports_stage rfl (reports_retouchesOf _) fun _ _ => ?_
  refine reports_stage rfl (reports_textsOf _ _) fun _ _ => ?_
  refine reports_stage rfl (reports_textsOf _ _) fun _ _ => ?_
  refine reports_stage rfl (reports_textsOf _ _) fun _ _ => ?_
  exact iff_of_true (reports_ok _) firstOf_nil

/-- Only the reading of a map can escape. -/
theorem reports_ofData (value : Data) : Reports (ofData value) ↔ ¬ ∃ entries,
    value.entries? = some entries ∧
      FirstOf (Stage.read entries) (Stage.Escapes entries) Stage.all := by
  rw [ofData_eq]
  cases value.entries? with
  | none =>
    have plain : Reports (.error (.script .notMapping) : Except Failure Script) := by
      rw [reports_script]
      rintro ⟨_, ⟨⟩, _⟩
    exact iff_of_true plain (by simp)
  | some entries => simpa using reports_ofEntries entries

end Script
end Colloquy
