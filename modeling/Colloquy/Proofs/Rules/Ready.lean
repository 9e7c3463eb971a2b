import Colloquy.Conversation
import Colloquy.Proofs.Outcome
import Colloquy.Proofs.Rules.Cycle
import Colloquy.Proofs.Rules.Order

/-! What every rule set that can be made is like: the rules of the script in the order in which they
are tried, one of them for when nothing else answers, and redirections that know their rules and come
to an end. -/

namespace Colloquy

/-- A reassembly without the position of the rule that it redirects to. -/
def Reassembly.unlinked : Reassembly → Reassembly
  | .literal template => .literal template
  | .redirect target _ => .redirect target none

namespace Rules
open Log (Noted)
open Relation (TransGen)

variable {synonyms : List Pattern.Synonym}

/-- A decomposition made ready from one that is written. -/
structure Decomposition.Renders (synonyms : List Pattern.Synonym) (d : Decomposition)
    (w : Script.Decomposition) : Prop where
  source : d.source = w.pattern
  kept : d.kept = (Pattern.compile synonyms w.pattern).kept
  expression : Regex.Expression.parse (Pattern.compile synonyms w.pattern).source false = .ok d.expression
  reassemblies : d.reassemblies.map Reassembly.unlinked = w.reassemblies.map Reassembly.parse
  answered : d.reassemblies ≠ []

/-- A rule made ready from one that is written. -/
structure Rule.Renders (synonyms : List Pattern.Synonym) (r : Rule) (w : Script.Rule) : Prop where
  keyword : r.keyword = w.keyword
  rank : r.rank = w.rank
  matcher : Regex.Expression.parse (matcherSource w.keyword) true = .ok r.matcher
  decompositions : List.Forall₂ (Decomposition.Renders synonyms) r.decompositions w.decompositions

/-- The position of the first rule of a keyword, or none where no rule has it. -/
def FirstAt (rules : List Rule) (keyword : String) : Option Nat → Prop
  | some i => (∃ r, rules[i]? = some r ∧ r.keyword = keyword) ∧
      ∀ j < i, ∀ r, rules[j]? = some r → r.keyword ≠ keyword
  | none => ∀ r ∈ rules, r.keyword ≠ keyword

/-- Rules that are ready, against the rules of the script. -/
structure Ready (synonyms : List Pattern.Synonym) (written : List Script.Rule) (rules : List Rule) :
    Prop where
  positions : (rules.map Rule.position).Perm (List.range written.length)
  renders : ∀ r ∈ rules, ∃ w, written[r.position]? = some w ∧ r.Renders synonyms w
  ordered : rules.Pairwise Precedes
  fallback : rules.countP (·.keyword = fallbackKeyword) = 1 ∧
    ∃ i r, indexOf? rules fallbackKeyword = some i ∧ rules[i]? = some r ∧
      r.keyword = fallbackKeyword ∧ r.rank = 0
  answered : ∀ r ∈ rules, ∀ d ∈ r.decompositions, d.reassemblies ≠ []
  linked : ∀ r ∈ rules, ∀ d ∈ r.decompositions, ∀ target index,
    Reassembly.redirect target index ∈ d.reassemblies →
      index = indexOf? rules target ∧ FirstAt rules target index
  acyclic : ∀ i, ¬ TransGen (Redirects rules) i i

theorem indexOf?_firstAt (rules : List Rule) (keyword : String) :
    FirstAt rules keyword (indexOf? rules keyword) := by
  cases found : indexOf? rules keyword with
  | none => simpa [FirstAt, indexOf?, List.findIdx?_eq_none_iff] using found
  | some i =>
    obtain ⟨inside, same, before⟩ := List.findIdx?_eq_some_iff_getElem.mp found
    refine ⟨⟨rules[i], List.getElem?_eq_getElem inside, by simpa using same⟩, ?_⟩
    intro j earlier r at_j
    obtain ⟨_, rfl⟩ := List.getElem?_eq_some_iff.mp at_j
    simpa using before j earlier

/-! One rule. -/

theorem compileExpression_ok {expression keyword pattern : String} {ignoreCase : Bool}
    {e : Regex.Expression} (made : compileExpression expression keyword pattern ignoreCase = .ok e) :
    Regex.Expression.parse expression ignoreCase = .ok e := by
  rw [compileExpression] at made
  split at made
  · next h => rw [h, Except.ok.inj made]
  · contradiction

@[simp] theorem unlinked_parse (text : String) :
    (Reassembly.parse text).unlinked = Reassembly.parse text := by
  rw [Reassembly.parse]
  split <;> rfl

/-- A decomposition that has been made ready renders the one that is written. -/
theorem compileDecomposition_ok {keyword : String} {w : Script.Decomposition} {d : Decomposition}
    (made : (compileDecomposition synonyms keyword w).outcome = .ok d) : d.Renders synonyms w := by
  rw [compileDecomposition] at made
  split at made
  · simp only [Noted.outcome_bind, Noted.outcome_fail, bind_eq_ok] at made
    obtain ⟨_, failed, _⟩ := made
    contradiction
  · next answered =>
    simp only [Noted.outcome_bind, Noted.outcome_note, Noted.outcome_ofExcept, bind_eq_ok] at made
    obtain ⟨_, _, expression, compiled, same⟩ := made
    cases same
    refine ⟨rfl, rfl, compileExpression_ok compiled, ?_, ?_⟩
    · simp [Function.comp_def]
    · simpa using answered

/-- A rule that has been made ready renders the one that is written, and has its position. -/
theorem compileRule_ok {w : Script.Rule} {position : Nat} {r : Rule}
    (made : (compileRule synonyms w position).outcome = .ok r) :
    r.Renders synonyms w ∧ r.position = position := by
  simp only [compileRule, Noted.outcome_bind, Noted.outcome_ofExcept, Noted.outcome_mapM,
    bind_eq_ok] at made
  obtain ⟨matcher, compiled, decompositions, all, same⟩ := made
  cases same
  refine ⟨⟨rfl, rfl, compileExpression_ok compiled, ?_⟩, rfl⟩
  exact ((mapM_eq_ok.mp all).imp fun w d made => compileDecomposition_ok made).flip

/-! Redirections that learn the positions of their rules. -/

variable {rules compiled : List Rule} {written : List Script.Rule}

/-- A rule whose redirections know their rules. -/
def Rule.link (rules : List Rule) (r : Rule) : Rule :=
  { r with decompositions := r.decompositions.map (·.resolve rules) }

theorem resolve_eq_map : resolve rules = rules.map (·.link rules) := rfl

theorem unlinked_resolveReassembly (a : Reassembly) :
    (resolveReassembly rules a).unlinked = a.unlinked := by
  cases a <;> rfl

theorem Decomposition.Renders.resolve {d : Decomposition} {w : Script.Decomposition}
    (renders : d.Renders synonyms w) : (d.resolve rules).Renders synonyms w where
  source := renders.source
  kept := renders.kept
  expression := renders.expression
  reassemblies := by
    rw [← renders.reassemblies]
    simp [Decomposition.resolve, unlinked_resolveReassembly]
  answered := by simpa [Decomposition.resolve] using renders.answered

theorem Rule.Renders.link {r : Rule} {w : Script.Rule} (renders : r.Renders synonyms w) :
    (r.link rules).Renders synonyms w where
  keyword := renders.keyword
  rank := renders.rank
  matcher := renders.matcher
  decompositions :=
    List.forall₂_map_left_iff.mpr (renders.decompositions.imp fun _ _ made => made.resolve)

theorem indexOf?_resolve (keyword : String) : indexOf? (resolve rules) keyword = indexOf? rules keyword := by
  rw [indexOf?, resolve_eq_map, List.findIdx?_map]
  rfl

/-- A redirection of a linked rule knows the first rule of its keyword. -/
theorem index_of_mem_link {r : Rule} {d : Decomposition} {target : String} {index : Option Nat}
    (hd : d ∈ (r.link rules).decompositions)
    (ha : Reassembly.redirect target index ∈ d.reassemblies) : index = indexOf? rules target := by
  obtain ⟨d, _, rfl⟩ := List.mem_map.mp hd
  obtain ⟨a, _, same⟩ := List.mem_map.mp ha
  cases a with
  | literal template => contradiction
  | redirect _ _ =>
    cases same
    rfl

/-! All rules. -/

theorem compileRules_ok (made : (compileRules synonyms written).outcome = .ok rules) :
    checkFallback written = .ok () ∧ ∃ compiled,
      List.Forall₂ (fun p r => r.Renders synonyms p.1 ∧ r.position = p.2) written.zipIdx compiled ∧
      rules = resolve (arrange compiled) ∧ checkCycles rules = .ok () := by
  simp only [compileRules, Noted.outcome_bind, Noted.outcome_ofExcept, Noted.outcome_mapM,
    Noted.outcome_note, Noted.outcome_pure, bind_eq_ok] at made
  obtain ⟨_, fallback, compiled, all, _, acyclic, _, _, same⟩ := made
  cases same
  exact ⟨fallback, compiled, (mapM_eq_ok.mp all).imp fun _ _ made => compileRule_ok made, rfl, acyclic⟩

theorem checkFallback_ok (checked : checkFallback written = .ok ()) :
    ∃ w, written.filter (·.keyword == fallbackKeyword) = [w] ∧ w.rank = 0 := by
  rw [checkFallback] at checked
  split at checked
  · next w only =>
    split at checked
    · next zero => exact ⟨w, only, zero⟩
    · contradiction
  · contradiction

section Made

variable (all : List.Forall₂ (fun p r => r.Renders synonyms p.1 ∧ r.position = p.2)
  written.zipIdx compiled)
include all

theorem positions_of_made : compiled.map Rule.position = List.range written.length := by
  have same : written.zipIdx.map Prod.snd = compiled.map Rule.position :=
    map_eq_of_forall₂ (all.imp fun _ _ made => made.2.symm)
  rw [← same, List.zipIdx_map_snd, List.range_eq_range']

theorem keywords_of_made : compiled.map Rule.keyword = written.map Script.Rule.keyword := by
  have same : written.zipIdx.map (·.1.keyword) = compiled.map Rule.keyword :=
    map_eq_of_forall₂ (all.imp fun _ _ made => made.1.keyword.symm)
  calc compiled.map Rule.keyword
      = (written.zipIdx.map Prod.fst).map Script.Rule.keyword := by rw [← same, List.map_map]; rfl
    _ = written.map Script.Rule.keyword := by rw [List.zipIdx_map_fst]

theorem renders_of_mem_made {r : Rule} (member : r ∈ compiled) :
    ∃ w, written[r.position]? = some w ∧ r.Renders synonyms w := by
  obtain ⟨⟨w, i⟩, inside, renders, rfl⟩ := exists_of_mem_right all member
  exact ⟨w, List.mk_mem_zipIdx_iff_getElem?.mp inside, renders⟩

end Made

/-- Where the rule of a keyword that stands once in the script has been put. -/
theorem fallback_found {w : Script.Rule} (keywords : (rules.map Rule.keyword).Perm
    (written.map Script.Rule.keyword)) (only : written.filter (·.keyword == fallbackKeyword) = [w]) :
    rules.countP (·.keyword = fallbackKeyword) = 1 ∧ ∃ i r,
      indexOf? rules fallbackKeyword = some i ∧ rules[i]? = some r ∧ r.keyword = fallbackKeyword := by
  have count : rules.countP (·.keyword = fallbackKeyword) = 1 := by
    have perm := keywords.countP_eq (· = fallbackKeyword)
    rw [List.countP_map, List.countP_map] at perm
    calc rules.countP (·.keyword = fallbackKeyword)
        = written.countP (·.keyword == fallbackKeyword) := perm
      _ = 1 := by rw [List.countP_eq_length_filter, only, List.length_singleton]
  refine ⟨count, ?_⟩
  have first := indexOf?_firstAt rules fallbackKeyword
  cases found : indexOf? rules fallbackKeyword with
  | some i =>
    rw [found] at first
    obtain ⟨⟨r, at_i, same⟩, _⟩ := first
    exact ⟨i, r, rfl, at_i, same⟩
  | none =>
    rw [found] at first
    have missing : rules.countP (·.keyword = fallbackKeyword) = 0 := by
      simpa [List.countP_eq_zero, FirstAt] using first
    omega

/-- Rules that have been made ready are ready. -/
theorem compileRules_ready (made : (compileRules synonyms written).outcome = .ok rules) :
    Ready synonyms written rules := by
  obtain ⟨fallback, compiled, all, rfl, acyclic⟩ := compileRules_ok made
  obtain ⟨w, only, zero⟩ := checkFallback_ok fallback
  have perm := arrange_perm compiled
  have renders : ∀ r ∈ resolve (arrange compiled), ∃ w, written[r.position]? = some w ∧
      r.Renders synonyms w := by
    intro r member
    obtain ⟨r, inside, rfl⟩ := List.mem_map.mp member
    obtain ⟨w, found, renders⟩ := renders_of_mem_made all (perm.mem_iff.mp inside)
    exact ⟨w, found, renders.link⟩
  have keywords : ((resolve (arrange compiled)).map Rule.keyword).Perm
      (written.map Script.Rule.keyword) := by
    rw [← keywords_of_made all, resolve_eq_map, List.map_map]
    exact perm.map Rule.keyword
  obtain ⟨count, i, r, found, at_i, same⟩ := fallback_found keywords only
  refine ⟨?_, renders, ?_, ⟨count, i, r, found, at_i, same, ?_⟩, ?_, ?_, ?_⟩
  · rw [← positions_of_made all, resolve_eq_map, List.map_map]
    exact perm.map Rule.position
  · rw [resolve_eq_map, List.pairwise_map]
    apply arrange_ordered
    rw [positions_of_made all]
    exact List.nodup_range
  · obtain ⟨v, at_position, renders⟩ := renders r (List.mem_of_getElem? at_i)
    have member : v ∈ written.filter (·.keyword == fallbackKeyword) :=
      List.mem_filter.mpr ⟨List.mem_of_getElem? at_position, by simp [← renders.keyword, same]⟩
    rw [only, List.mem_singleton] at member
    rw [renders.rank, member, zero]
  · intro r member d hd
    obtain ⟨w, _, renders⟩ := renders r member
    obtain ⟨v, _, renders⟩ := exists_of_mem_right renders.decompositions.flip hd
    exact renders.answered
  · intro r member d hd target index ha
    obtain ⟨r, _, rfl⟩ := List.mem_map.mp member
    have linked : index = indexOf? (resolve (arrange compiled)) target := by
      rw [indexOf?_resolve]
      exact index_of_mem_link hd ha
    exact ⟨linked, linked ▸ indexOf?_firstAt _ target⟩
  · exact acyclic_of_checkCycles acyclic

/-! The rule set. -/

theorem ruleSetOf_ok {tables : Script} {s : RuleSet}
    (made : (ruleSetOf rules tables).outcome = .ok s) :
    s.rules = rules ∧ s.pres = .ofPairs tables.pres ∧ s.posts = .ofPairs tables.posts := by
  simp only [ruleSetOf, Noted.outcome_bind, Noted.outcome_ofExcept, Noted.outcome_note,
    Noted.outcome_pure, bind_eq_ok] at made
  obtain ⟨_, _, _, _, same⟩ := made
  cases same
  exact ⟨rfl, rfl, rfl⟩

/-- The rules of a rule set that has been made are ready, and its tables are those of the script. -/
theorem compileSet_ok {entries : List Script.Entry} {tables : Script} {s : RuleSet}
    (made : (compileSet entries tables).outcome = .ok s) :
    (∃ written, entries.mapM Script.Entry.toRule = .ok written ∧
      Ready tables.synonyms written s.rules) ∧
    s.pres = .ofPairs tables.pres ∧ s.posts = .ofPairs tables.posts := by
  simp only [compileSet, compileEntries, Noted.outcome_bind, Noted.outcome_ofExcept,
    bind_eq_ok] at made
  obtain ⟨rules, ⟨written, read, compiled⟩, made⟩ := made
  obtain ⟨rfl, pres, posts⟩ := ruleSetOf_ok made
  exact ⟨⟨written, read, compileRules_ready compiled⟩, pres, posts⟩

/-- A conversation can be started with a rule set that has a fallback rule, if its settings are accepted.
-/
theorem start_eq_ok {s : RuleSet} {i : Nat} (fallback : s.fallback? = some i)
    {settings : EngineSettings} {options : Options} (checked : settings.check = .ok options)
    (source : RandomSource) :
    Engine.start s (.source source) settings =
      .ok (⟨s, i, options⟩, ⟨source, .start s options.capacity, []⟩) := by
  simp only [Engine.start, Engine.make, RandomSource.Offer.accept, checked, fallback]
  rfl

/-- Rules that can be made ready are ready, and a conversation can be held with them. -/
theorem compileSet_ready (entries : List Script.Entry) (tables : Script) (s : RuleSet)
    (made : (compileSet entries tables).outcome = .ok s) :
    (∃ written, entries.mapM Script.Entry.toRule = .ok written ∧
      Ready tables.synonyms written s.rules) ∧
    (∃ i r, s.fallback? = some i ∧ s.rules[i]? = some r ∧ r.keyword = fallbackKeyword ∧
      r.rank = 0) ∧
    ∀ source settings options, settings.check = .ok options →
      ∃ e c, Engine.start s (.source source) settings = .ok (e, c) ∧ e.rules = s := by
  obtain ⟨⟨written, read, ready⟩, _, _⟩ := compileSet_ok made
  obtain ⟨_, i, r, found, at_i, keyword, rank⟩ := ready.fallback
  refine ⟨⟨written, read, ready⟩, ⟨i, r, found, at_i, keyword, rank⟩, ?_⟩
  intro source settings options checked
  exact ⟨_, _, start_eq_ok found checked source, rfl⟩

/-- Two rules of one keyword, one of them ranked below the fallback rule, with a redirection to a
rule and one that leads nowhere. -/
def quarrel : List Script.Entry :=
  [.rule ⟨"never", -1, [⟨"* never *", ["Why never?", "goto always", "goto sometimes"]⟩]⟩,
    .rule ⟨"always", 0, [⟨"$ *", ["You said (1)."]⟩]⟩,
    .rule ⟨fallbackKeyword, 0, [⟨"*", ["Go on."]⟩]⟩,
    .data (.map [(.text "keyword", .text "never"), (.text "rank", .int 0),
      (.text "decompositions", .list [])])]

theorem quarrel_ready : ∃ s, (compileSet quarrel .empty).outcome = .ok s ∧
    (∃ written, quarrel.mapM Script.Entry.toRule = .ok written ∧ Ready [] written s.rules) ∧
    ∀ source, ∃ e c, Engine.start s (.source source) .default = .ok (e, c) ∧ e.rules = s := by
  have checked : (compileSet quarrel .empty).outcome.toOption.any fun _ => true := by
    decide +kernel
  obtain ⟨s, made, _⟩ := exists_of_any checked
  obtain ⟨ready, _, starts⟩ := compileSet_ready quarrel .empty s made
  exact ⟨s, made, ready, fun source => starts source .default ⟨true, 20, 16, false⟩ rfl⟩

end Rules
end Colloquy
