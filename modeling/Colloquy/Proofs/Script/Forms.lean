import Colloquy.Proofs.Script.ReadBack
import Colloquy.Proofs.Script.Reports

/-! The two forms of a keyword rule, a list and a map. From either comes the same rule or the same
problem, unless what is wrong with the rule cannot be shown. -/

namespace Colloquy.Script

def RawDecomposition.toList (d : RawDecomposition) : Data := .list [d.pattern, .list d.reassemblies]

def RawDecomposition.toMap (d : RawDecomposition) : Data :=
  .map [(.text "pattern", d.pattern), (.text "reassemblies", .list d.reassemblies)]

def RawRule.toList (raw : RawRule) : Data :=
  .list [raw.keyword, raw.rank, .list (raw.decompositions.map RawDecomposition.toList)]

def RawRule.toMap (raw : RawRule) : Data :=
  .map [(.text "keyword", raw.keyword), (.text "rank", raw.rank),
    (.text "decompositions", .list (raw.decompositions.map RawDecomposition.toMap))]

variable {raw : RawRule}

/-! Both forms are taken apart into what they were made of. -/

theorem RawRule.ofList_toList (raw : RawRule) : RawRule.ofList raw.toList = .ok raw := by
  have decompositions : (raw.decompositions.map RawDecomposition.toList).mapM RawDecomposition.ofList =
      .ok raw.decompositions := mapM_map_ok fun _ _ => rfl
  exact bind_eq_ok.mpr ⟨_, rfl, bind_eq_ok.mpr ⟨_, rfl, bind_eq_ok.mpr ⟨_, rfl,
    bind_eq_ok.mpr ⟨_, rfl, bind_eq_ok.mpr ⟨_, decompositions, rfl⟩⟩⟩⟩⟩

theorem RawDecomposition.ofMap_toMap (keyword : Data) (d : RawDecomposition) :
    RawDecomposition.ofMap keyword d.toMap = .ok d := bind_eq_ok.mpr ⟨_, partsOf_list _, rfl⟩

/-- A rule in the form of a list is checked as it is. -/
theorem Rule.ofList_toList (raw : RawRule) : Rule.ofList raw.toList = reported raw.check := by
  rw [Rule.ofList, RawRule.ofList_toList]

/-- A rule in the form of a map is checked as it is. -/
theorem Rule.ofMap_toMap (raw : RawRule) : Rule.ofMap raw.toMap = reported raw.check := by
  have decompositions : (raw.decompositions.map RawDecomposition.toMap).mapM
      (RawDecomposition.ofMap raw.keyword) = .ok raw.decompositions :=
    mapM_map_ok fun d _ => RawDecomposition.ofMap_toMap raw.keyword d
  calc
    Rule.ofMap raw.toMap = (do
        let parts ← partsOf (some (.list (raw.decompositions.map RawDecomposition.toMap)))
        let decompositions ← parts.mapM (RawDecomposition.ofMap raw.keyword)
        reported (RawRule.check ⟨raw.keyword, raw.rank, decompositions⟩)) := rfl
    _ = reported raw.check := by rw [partsOf_list, ok_bind, decompositions, ok_bind]

/-! What is wrong with a rule. -/

/-- The ways in which the first thing that is wrong with a rule is a value without a text: it stands for
the keyword, for the rank and is no number, or for a pattern. -/
inductive RawRule.Unshown (raw : RawRule) : Prop
  | keyword (hidden : raw.keyword.isShowable = false)
  | rank {keyword : String} (named : raw.keyword = .text keyword) (given : keyword ≠ "")
    (other : ∀ rank, raw.rank ≠ .int rank) (hidden : raw.rank.isShowable = false)
  | pattern {keyword : String} {rank : Int} (named : raw.keyword = .text keyword) (given : keyword ≠ "")
    (ranked : raw.rank = .int rank)
    (first : FirstOf (RawDecomposition.check keyword) (·.pattern.isShowable = false) raw.decompositions)

theorem RawDecomposition.check_hidden (keyword : String) (d : RawDecomposition) :
    (∃ p, d.check keyword = .error p ∧ p.Hidden) ↔ d.pattern.isShowable = false := by
  obtain ⟨pattern, reassemblies⟩ := d
  cases pattern with
  | text pattern =>
    have shown : (Data.text pattern).isShowable = true := rfl
    refine iff_of_false ?_ (by simp [shown])
    rintro ⟨p, refused, value, shown, _⟩
    rw [check] at refused
    dsimp only at refused
    split at refused
    · contradiction
    · cases refused
      contradiction
  | _ => simp [check, ScriptProblem.Hidden, ScriptProblem.shownValues]

theorem hidden_iff {p : ScriptProblem} {value : Data} (shows : p.shownValues = [value]) :
    p.Hidden ↔ value.isShowable = false := by
  rw [ScriptProblem.Hidden, shows]
  simp

/-- The check of a rule refuses a value without a text just if that is the first thing wrong. -/
theorem RawRule.check_hidden (raw : RawRule) :
    (∃ p, raw.check = .error p ∧ p.Hidden) ↔ raw.Unshown := by
  obtain ⟨keyword, rank, ds⟩ := raw
  constructor
  · rintro ⟨p, refused, hidden⟩
    rw [check] at refused
    dsimp only at refused
    split at refused
    · next keyword =>
      split at refused
      · cases refused
        cases (hidden_iff rfl).mp hidden
      · next nonempty =>
        have given : keyword ≠ "" := fun empty => nonempty (String.isEmpty_iff.mpr empty)
        split at refused
        · next rank =>
          have failed : ds.mapM (RawDecomposition.check keyword) = .error p :=
            (bind_pure_eq_error _ _).mp refused
          have first := (exists_mapM_error (RawDecomposition.check_hidden keyword) ds).mp ⟨p, failed, hidden⟩
          exact .pattern rfl given rfl first
        · next rank other =>
          cases refused
          exact .rank rfl given other ((hidden_iff rfl).mp hidden)
    · next keyword other =>
      cases refused
      exact .keyword ((hidden_iff rfl).mp hidden)
  · intro unshown
    cases unshown with
    | keyword hidden =>
      refine ⟨.badKeyword keyword, ?_, (hidden_iff rfl).mpr hidden⟩
      cases keyword with
      | text name => cases hidden
      | _ => rfl
    | @rank name named given other hidden =>
      cases named
      refine ⟨.badRank name rank, ?_, (hidden_iff rfl).mpr hidden⟩
      rw [check]
      dsimp only
      rw [if_neg (mt String.isEmpty_iff.mp given)]
      split
      · next found => exact absurd rfl (other found)
      · rfl
    | @pattern name rank named given ranked first =>
      cases named
      cases ranked
      obtain ⟨p, failed, hidden⟩ := (exists_mapM_error (RawDecomposition.check_hidden name) ds).mpr first
      refine ⟨p, ?_, hidden⟩
      rw [check]
      dsimp only
      rw [if_neg (mt String.isEmpty_iff.mp given)]
      exact (bind_pure_eq_error _ _).mpr failed

/-! Rules read from either form. -/

/-- A rule that has been read is read again from its own form, a map. -/
theorem Rule.ofMap_toData {r : Rule} (given : r.keyword ≠ "") : Rule.ofMap r.toData = .ok r :=
  Rule.ofData_data given

/-- Whether the two forms of a rule give the same rule, or are refused with the same report. -/
def RawRule.Agrees (raw : RawRule) : Prop :=
  (∃ r, Rule.ofList raw.toList = .ok r ∧ Rule.ofMap raw.toMap = .ok r) ∨
    ∃ p : ScriptProblem, Rule.ofList raw.toList = .error (.reported (.script p)) ∧
      Rule.ofMap raw.toMap = .error (.reported (.script p))

/-- A problem is reported, unless it shows a value without a text. -/
theorem reported_error {α : Type} (p : ScriptProblem) :
    ¬ p.Hidden ∧ (reported (.error p) : Except Failure α) = .error (.reported (.script p)) ∨
      p.Hidden ∧ (reported (.error p) : Except Failure α) = .error (.breakdown .badValue) := by
  have all : (Problem.script p).shownValues.all Data.isShowable = true ↔ ¬ p.Hidden := by
    simp [Problem.shownValues, ScriptProblem.Hidden]
  rw [reported, Failure.script, Failure.because]
  split
  · next shown => exact .inl ⟨all.mp shown, rfl⟩
  · next hidden => exact .inr ⟨not_not.mp (mt all.mpr hidden), rfl⟩

theorem reported_or_iff {α : Type} (x : Except ScriptProblem α) :
    ((∃ a, reported x = .ok a) ∨ ∃ p : ScriptProblem, reported x = .error (.reported (.script p))) ↔
      ¬ ∃ p, x = .error p ∧ p.Hidden := by
  cases x with
  | ok a => exact iff_of_true (.inl ⟨a, rfl⟩) (by simp)
  | error p =>
    rcases reported_error (α := α) p with ⟨shown, told⟩ | ⟨hidden, failed⟩
    · exact iff_of_true (.inr ⟨p, told⟩) (by simpa using shown)
    · rw [failed]
      exact iff_of_false (by simp) (by simpa using hidden)

/-- The list and the map of the same parts are read alike: as the same rule, or with the same report of
what is wrong, just if no value without a text is in the way of the report. A rule that is read from any
list or map comes back from its own form. -/
theorem forms_agree_iff (raw : RawRule) :
    Rule.ofList raw.toList = Rule.ofMap raw.toMap ∧ (raw.Agrees ↔ ¬ raw.Unshown) ∧
      ∀ entry r, Rule.ofList entry = .ok r ∨ Rule.ofMap entry = .ok r → Rule.ofMap r.toData = .ok r := by
  refine ⟨?_, ?_, ?_⟩
  · rw [Rule.ofList_toList, Rule.ofMap_toMap]
  · simp only [RawRule.Agrees, Rule.ofList_toList, Rule.ofMap_toMap, and_self]
    exact (reported_or_iff raw.check).trans (not_congr (RawRule.check_hidden raw))
  · rintro entry r (read | read)
    · exact Rule.ofMap_toData (Rule.ofList_keyword read)
    · exact Rule.ofMap_toData (Rule.ofMap_keyword read)

def overlong : RawRule := ⟨.int (.ofNat (Nat.pow 16 3580)), .int 0, []⟩

theorem overlong_escapes :
    Rule.ofList overlong.toList = .error (.breakdown .badValue) ∧
      Rule.ofMap overlong.toMap = .error (.breakdown .badValue) ∧ ¬ overlong.Agrees := by
  have hidden : overlong.keyword.isShowable = false := by decide +kernel
  have refused : overlong.check = .error (.badKeyword overlong.keyword) := rfl
  have failed : reported overlong.check = .error (.breakdown .badValue) := by
    rw [refused]
    rcases reported_error (α := Rule) (.badKeyword overlong.keyword) with ⟨shown, _⟩ | ⟨_, failed⟩
    · exact absurd ⟨_, List.mem_singleton_self _, hidden⟩ shown
    · exact failed
  simp only [RawRule.Agrees, Rule.ofList_toList, Rule.ofMap_toMap, failed]
  simp

/-- A rule of which a decomposition has a number among its reassemblies. -/
def numbering : RawRule := ⟨.text "my", .int 2, [⟨.text "* my *", [.text "Your (2)?", .int 5]⟩]⟩

theorem numbering_agrees : numbering.Agrees ∧
    Rule.ofList numbering.toList = .error (.reported (.script (.badReassemblies "my" "* my *"))) := by
  have unshown : ¬ numbering.Unshown := by
    rw [← RawRule.check_hidden]
    rintro ⟨p, refused, value, member, _⟩
    cases refused
    contradiction
  exact ⟨(forms_agree_iff numbering).2.1.mpr unshown, rfl⟩

end Colloquy.Script
