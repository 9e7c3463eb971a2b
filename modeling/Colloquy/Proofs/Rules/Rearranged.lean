import Colloquy.Proofs.Rules.Ready

/-! Scripts with the same rules in another order. As long as rules of one rank keep their order, the
rules that are made ready are the same but for the positions that they remember. -/

namespace Colloquy

/-- The rank of a keyword rule as it is handed over, if it is one. -/
def Script.Entry.rank? (entry : Script.Entry) : Option Int := entry.toRule.toOption.map Script.Rule.rank

namespace Rules
open Log (Noted)

variable {synonyms : List Pattern.Synonym} {rules rules' : List Rule}
  {written written' : List Script.Rule}

def Rule.unplaced (r : Rule) : Rule := { r with position := 0 }

def placed (rules : List Rule) : List Rule := rules.zipIdx.map fun p => { p.1 with position := p.2 }

theorem unplaced_placed (rules : List Rule) :
    (placed rules).map Rule.unplaced = rules.map Rule.unplaced := by
  rw [placed, List.map_map]
  calc rules.zipIdx.map (Rule.unplaced ∘ fun p => { p.1 with position := p.2 })
      = (rules.zipIdx.map Prod.fst).map Rule.unplaced := by rw [List.map_map]; rfl
    _ = rules.map Rule.unplaced := by rw [List.zipIdx_map_fst]

theorem positions_placed (rules : List Rule) :
    (placed rules).map Rule.position = List.range rules.length := by
  rw [placed, List.map_map, List.range_eq_range', ← List.zipIdx_map_snd]
  rfl

/-! Rules by rank. -/

/-- Rules in descending order of rank are known from those of each rank. Each head stands in the other
list, below the head of it. -/
theorem eq_of_ranks (descending : rules.Pairwise fun a b => b.rank ≤ a.rank)
    (descending' : rules'.Pairwise fun a b => b.rank ≤ a.rank)
    (same : ∀ k : Int, rules.filter (·.rank == k) = rules'.filter (·.rank == k)) : rules = rules' := by
  have found (k : Int) {l l' : List Rule} (same : l.filter (·.rank == k) = l'.filter (·.rank == k))
      {r : Rule} (member : r ∈ l) (rank : r.rank = k) : r ∈ l' := by
    have inside : r ∈ l.filter (·.rank == k) := List.mem_filter.mpr ⟨member, by simp [rank]⟩
    rw [same] at inside
    exact (List.mem_filter.mp inside).1
  induction rules generalizing rules' with
  | nil =>
    cases rules' with
    | nil => rfl
    | cons b rest => exact absurd (found b.rank (same b.rank).symm List.mem_cons_self rfl) List.not_mem_nil
  | cons a rest ih =>
    cases rules' with
    | nil => exact absurd (found a.rank (same a.rank) List.mem_cons_self rfl) List.not_mem_nil
    | cons b rest' =>
      obtain ⟨below, others⟩ := List.pairwise_cons.mp descending
      obtain ⟨below', others'⟩ := List.pairwise_cons.mp descending'
      have least : a.rank ≤ b.rank := by
        rcases List.mem_cons.mp (found a.rank (same a.rank) List.mem_cons_self rfl) with rfl | later
        · exact Int.le_refl _
        · exact below' a later
      have most : b.rank ≤ a.rank := by
        rcases List.mem_cons.mp (found b.rank (same b.rank).symm List.mem_cons_self rfl) with rfl | later
        · exact Int.le_refl _
        · exact below b later
      have equal : b.rank = a.rank := Int.le_antisymm most least
      have heads := same a.rank
      rw [List.filter_cons_of_pos (by simp), List.filter_cons_of_pos (by simp [equal])] at heads
      obtain ⟨rfl, _⟩ := List.cons.inj heads
      refine congrArg (a :: ·) (ih others others' fun k => ?_)
      have tails := same k
      rw [List.filter_cons, List.filter_cons] at tails
      split at tails
      · exact (List.cons.inj tails).2
      · exact tails

/-- Among rules of one rank the order in which they are tried is that of their positions. No two
positions are the same, so that the ascending order is the only one. -/
theorem arrange_filter (ascending : rules.Pairwise fun a b => a.position < b.position) (k : Int) :
    (arrange rules).filter (·.rank == k) = rules.filter (·.rank == k) := by
  have apart : (rules.map Rule.position).Nodup :=
    List.pairwise_map.mpr (ascending.imp fun less => less.ne)
  have ordered : ((arrange rules).filter (·.rank == k)).Pairwise
      fun a b => a.position < b.position := by
    refine ((arrange_ordered apart).filter _).imp_of_mem fun {a b} first second precedes => ?_
    have rank : a.rank = k := by simpa using (List.mem_filter.mp first).2
    have rank' : b.rank = k := by simpa using (List.mem_filter.mp second).2
    unfold Precedes at precedes
    omega
  refine List.Perm.eq_of_pairwise ?_ ordered (ascending.filter _) ((arrange_perm rules).filter _)
  intro a b _ _ less more
  exact absurd more less.asymm

theorem arrange_placed_filter (rules : List Rule) (k : Int) :
    ((arrange (placed rules)).map Rule.unplaced).filter (·.rank == k) =
      (rules.filter (·.rank == k)).map Rule.unplaced := by
  have ascending : (placed rules).Pairwise fun a b => a.position < b.position := by
    rw [← List.pairwise_map (R := (· < ·)), positions_placed]
    exact List.pairwise_lt_range
  calc ((arrange (placed rules)).map Rule.unplaced).filter (·.rank == k)
      = ((arrange (placed rules)).filter (·.rank == k)).map Rule.unplaced := by
        rw [List.filter_map]; rfl
    _ = ((placed rules).map Rule.unplaced).filter (·.rank == k) := by
        rw [arrange_filter ascending, List.filter_map]; rfl
    _ = (rules.filter (·.rank == k)).map Rule.unplaced := by
        rw [unplaced_placed, List.filter_map]; rfl

/-- Arranged rules depend on the order of the rules of each rank only. -/
theorem arrange_placed_eq
    (same : ∀ k : Int, rules.filter (·.rank == k) = rules'.filter (·.rank == k)) :
    (arrange (placed rules)).map Rule.unplaced = (arrange (placed rules')).map Rule.unplaced := by
  have descending (rules : List Rule) :
      ((arrange (placed rules)).map Rule.unplaced).Pairwise fun a b => b.rank ≤ a.rank := by
    have apart : ((placed rules).map Rule.position).Nodup := by
      rw [positions_placed]
      exact List.nodup_range
    refine List.pairwise_map.mpr ((arrange_ordered apart).imp fun {a b} precedes => ?_)
    unfold Precedes at precedes
    change b.rank ≤ a.rank
    omega
  refine eq_of_ranks (descending rules) (descending rules') fun k => ?_
  rw [arrange_placed_filter, arrange_placed_filter, same]

/-! Redirections do not look at positions. -/

theorem indexOf?_unplaced (keyword : String) :
    indexOf? (rules.map Rule.unplaced) keyword = indexOf? rules keyword := by
  rw [indexOf?, List.findIdx?_map]
  rfl

theorem resolve_unplaced (rules : List Rule) :
    (resolve rules).map Rule.unplaced = resolve (rules.map Rule.unplaced) := by
  have linked : resolveReassembly (rules.map Rule.unplaced) = resolveReassembly rules := by
    funext a
    cases a with
    | literal template => rfl
    | redirect target index => rw [resolveReassembly, resolveReassembly, indexOf?_unplaced]
  have inside : Decomposition.resolve (rules.map Rule.unplaced) = Decomposition.resolve rules := by
    funext d
    rw [Decomposition.resolve, Decomposition.resolve, linked]
  rw [resolve, resolve, inside, List.map_map, List.map_map]
  rfl

theorem checkCycles_unplaced (rules : List Rule) :
    checkCycles (rules.map Rule.unplaced) = checkCycles rules := by
  have edges : redirectionsAt (rules.map Rule.unplaced) = redirectionsAt rules := by
    funext index
    rw [redirectionsAt, redirectionsAt, List.getElem?_map]
    cases rules[index]? <;> rfl
  have keywords : keywordsAt (rules.map Rule.unplaced) = keywordsAt rules := by
    funext indices
    refine List.map_congr_left fun i _ => ?_
    rw [List.getElem?_map]
    cases rules[i]? <;> rfl
  rw [checkCycles, checkCycles, redirectCycle?, redirectCycle?, edges, keywords, List.length_map]

/-! How rules are made ready. -/

def makeReady (synonyms : List Pattern.Synonym) (w : Script.Rule) : Except Failure Rule :=
  (compileRule synonyms w 0).outcome

theorem compileRule_outcome (w : Script.Rule) (position : Nat) :
    (compileRule synonyms w position).outcome =
      (makeReady synonyms w).map fun r => { r with position } := by
  simp only [makeReady, compileRule, Noted.outcome_bind, Noted.outcome_ofExcept, Noted.outcome_pure]
  cases compileExpression (matcherSource w.keyword) w.keyword w.keyword true with
  | error f => rfl
  | ok matcher =>
    cases (w.decompositions.mapM (compileDecomposition synonyms w.keyword)).outcome with
    | error f => rfl
    | ok decompositions => rfl

theorem mapM_compileRule (start : Nat) :
    (written.zipIdx start).mapM (fun p => (compileRule synonyms p.1 p.2).outcome) =
      (written.mapM (makeReady synonyms)).map fun rules =>
        (rules.zipIdx start).map fun p => { p.1 with position := p.2 } := by
  induction written generalizing start with
  | nil => rfl
  | cons w rest ih =>
    rw [List.zipIdx_cons, List.mapM_cons, List.mapM_cons, compileRule_outcome, ih]
    cases makeReady synonyms w with
    | error f => rfl
    | ok r =>
      cases rest.mapM (makeReady synonyms) with
      | error f => rfl
      | ok rules => rfl

/-- Rules are made ready just so. -/
theorem compileRules_eq_ok : (compileRules synonyms written).outcome = .ok rules ↔
    checkFallback written = .ok () ∧ ∃ found, written.mapM (makeReady synonyms) = .ok found ∧
      checkCycles (resolve (arrange (placed found))) = .ok () ∧
      rules = resolve (arrange (placed found)) := by
  simp only [compileRules, Noted.outcome_bind, Noted.outcome_ofExcept, Noted.outcome_mapM,
    mapM_compileRule, Noted.outcome_note, Noted.outcome_pure, bind_eq_ok]
  constructor
  · rintro ⟨_, fallback, compiled, all, _, acyclic, _, _, same⟩
    cases found : written.mapM (makeReady synonyms) with
    | error f =>
      rw [found] at all
      contradiction
    | ok rules =>
      rw [found] at all
      cases all
      exact ⟨fallback, rules, rfl, acyclic, (Except.ok.inj same).symm⟩
  · rintro ⟨fallback, found, all, acyclic, rfl⟩
    exact ⟨(), fallback, placed found, by rw [all]; rfl, (), acyclic, (), trivial, rfl⟩

theorem checkFallback_eq_ok : checkFallback written = .ok () ↔
    ∃ w, written.filter (·.keyword == fallbackKeyword) = [w] ∧ w.rank = 0 := by
  refine ⟨checkFallback_ok, ?_⟩
  rintro ⟨w, only, zero⟩
  rw [checkFallback, only]
  exact if_pos zero

theorem checkFallback_perm (perm : written.Perm written') (checked : checkFallback written = .ok ()) :
    checkFallback written' = .ok () := by
  obtain ⟨w, only, zero⟩ := checkFallback_eq_ok.mp checked
  have same := perm.filter (·.keyword == fallbackKeyword)
  rw [only] at same
  exact checkFallback_eq_ok.mpr ⟨w, (List.singleton_perm.mp same).symm, zero⟩

theorem rank_of_makeReady {w : Script.Rule} {r : Rule} (ready : makeReady synonyms w = .ok r) : w.rank = r.rank :=
  (compileRule_ok ready).1.rank.symm

/-- Rules in another order are made ready as well, and they are the same but for their positions. The
rules of one rank are made ready from the written ones of that rank, which are the same. -/
theorem compileRules_rearranged (perm : written.Perm written')
    (order : ∀ k : Int, written.filter (·.rank == k) = written'.filter (·.rank == k))
    (ready : (compileRules synonyms written).outcome = .ok rules) :
    ∃ rules', (compileRules synonyms written').outcome = .ok rules' ∧
      rules'.map Rule.unplaced = rules.map Rule.unplaced := by
  obtain ⟨fallback, found, all, acyclic, rfl⟩ := compileRules_eq_ok.mp ready
  obtain ⟨found', all', _⟩ := exists_mapM_of_perm perm all
  have ranks (k : Int) : found.filter (·.rank == k) = found'.filter (·.rank == k) := by
    have agree (w : Script.Rule) (r : Rule) (ready : makeReady synonyms w = .ok r) :
        (w.rank == k) = (r.rank == k) := by rw [rank_of_makeReady ready]
    have first := mapM_filter agree all
    rw [order k] at first
    exact Except.ok.inj (first.symm.trans (mapM_filter agree all'))
  have same : (resolve (arrange (placed found'))).map Rule.unplaced =
      (resolve (arrange (placed found))).map Rule.unplaced := by
    rw [resolve_unplaced, resolve_unplaced, arrange_placed_eq ranks]
  refine ⟨_, compileRules_eq_ok.mpr ⟨checkFallback_perm perm fallback, found', all', ?_, rfl⟩, same⟩
  rw [← checkCycles_unplaced, same, checkCycles_unplaced]
  exact acyclic

end Rules

def RuleSet.unplaced (s : RuleSet) : RuleSet := { s with rules := s.rules.map Rules.Rule.unplaced }

namespace Rules
open Log (Noted)

theorem ruleSetOf_unplaced {rules rules' : List Rule} {tables : Script} {s : RuleSet}
    (same : rules'.map Rule.unplaced = rules.map Rule.unplaced)
    (made : (ruleSetOf rules tables).outcome = .ok s) :
    ∃ s', (ruleSetOf rules' tables).outcome = .ok s' ∧ s'.unplaced = s.unplaced := by
  simp only [ruleSetOf, Noted.outcome_bind, Noted.outcome_ofExcept, Noted.outcome_note,
    Noted.outcome_pure, bind_eq_ok] at made ⊢
  obtain ⟨retouches, compiled, _, _, made⟩ := made
  cases made
  refine ⟨_, ⟨retouches, compiled, (), trivial, rfl⟩, ?_⟩
  rw [RuleSet.unplaced, RuleSet.unplaced, same]

/-- Keyword rules in another order make the same rule set but for positions, if those of each rank keep
theirs. -/
theorem compileSet_rearranged {entries entries' : List Script.Entry} {tables : Script} {s : RuleSet}
    (perm : entries.Perm entries')
    (order : ∀ k : Int, entries.filter (·.rank? == some k) = entries'.filter (·.rank? == some k))
    (made : (compileSet entries tables).outcome = .ok s) :
    ∃ s', (compileSet entries' tables).outcome = .ok s' ∧ s'.unplaced = s.unplaced := by
  simp only [compileSet, compileEntries, Noted.outcome_bind, Noted.outcome_ofExcept,
    bind_eq_ok] at made ⊢
  obtain ⟨rules, ⟨written, read, ready⟩, made⟩ := made
  obtain ⟨written', read', perm⟩ := exists_mapM_of_perm perm read
  have ranks (k : Int) : written.filter (·.rank == k) = written'.filter (·.rank == k) := by
    have agree (entry : Script.Entry) (w : Script.Rule) (read : entry.toRule = .ok w) :
        (entry.rank? == some k) = (w.rank == k) := by
      rw [Script.Entry.rank?, read]
      rfl
    have first := mapM_filter agree read
    rw [order k] at first
    exact Except.ok.inj (first.symm.trans (mapM_filter agree read'))
  obtain ⟨rules', ready', same⟩ := compileRules_rearranged perm ranks ready
  obtain ⟨s', made', same⟩ := ruleSetOf_unplaced same made
  exact ⟨s', ⟨rules', ⟨written', read', ready'⟩, made'⟩, same⟩

end Rules
end Colloquy
