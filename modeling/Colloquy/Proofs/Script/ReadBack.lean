import Colloquy.Proofs.Outcome
import Colloquy.Proofs.Script.Reading
import Colloquy.Proofs.Substitution
import Colloquy.Rules.Compile

/-! Scripts as data, read back: each part comes back as it was, and of substitutions as many as have
different words. -/

namespace Colloquy

/-! Synonyms in which no word is repeated. -/

namespace Pattern.Synonym

theorem put_eq (s : Synonym) (entries : List Synonym) : put s entries = Keyed.put Synonym.word s entries := by
  induction entries with
  | nil => rfl
  | cons e rest ih => rw [put, Keyed.put, ih]

theorem distinct_eq (synonyms : List Synonym) :
    distinct synonyms = Keyed.ofList Synonym.word synonyms := by
  simp only [distinct, put_eq]
  rfl

end Pattern.Synonym

namespace Data

theorem allTexts?_eq_some {items : List Data} {texts : List String} :
    allTexts? items = some texts ↔ items = texts.map .text := by
  constructor
  · intro all
    induction items generalizing texts with
    | nil =>
      cases all
      rfl
    | cons item rest ih =>
      cases item with
      | text s =>
        obtain ⟨others, later, rfl⟩ := Option.map_eq_some_iff.mp all
        rw [ih later, List.map_cons]
      | _ => contradiction
  · rintro rfl
    induction texts with
    | nil => rfl
    | cons s rest ih => rw [List.map_cons, allTexts?, ih, Option.map_some]

theorem insert_text (s : Substitution) (entries : List Substitution) :
    insert (.text s.word) (.text s.replacement)
        (entries.map fun e => (.text e.word, .text e.replacement)) =
      (Keyed.put Substitution.word s entries).map fun e => (.text e.word, .text e.replacement) := by
  induction entries with
  | nil => rfl
  | cons e rest ih =>
    have keys : sameKey (.text e.word) (.text s.word) = (e.word == s.word) := rfl
    rw [List.map_cons, insert, keys, ih, Keyed.put]
    by_cases same : e.word = s.word
    · simp [same]
    · simp [same]

end Data

namespace Script

open Pattern (Synonym)

/-- The parts of a script that reading makes sure of: keywords are not empty, and no word has synonyms
twice. -/
structure Read (s : Script) : Prop where
  keywords : ∀ r ∈ s.rules, r.keyword ≠ ""
  synonyms : (s.synonyms.map Synonym.word).Nodup

/-- A script without a word repeated among the substitutions: every word stands where it comes first,
with what comes for it last. -/
def condensed (s : Script) : Script :=
  { s with
    pres := Keyed.condensed Substitution.word s.pres
    posts := Keyed.condensed Substitution.word s.posts }

/-! What reading makes sure of. -/

theorem RawDecomposition.check_eq_ok {keyword : String} {d : RawDecomposition} {made : Decomposition} :
    d.check keyword = .ok made ↔
      d.pattern = .text made.pattern ∧ d.reassemblies = made.reassemblies.map .text := by
  obtain ⟨pattern, reassemblies⟩ := d
  obtain ⟨pattern', texts⟩ := made
  rw [check]
  dsimp only
  rw [← Data.allTexts?_eq_some]
  cases pattern with
  | text s => cases Data.allTexts? reassemblies <;> simp
  | _ => simp

/-- A rule passes the check just if its keyword is a text, not an empty one, its rank a whole number, and
its decompositions pass. -/
theorem RawRule.check_eq_ok {raw : RawRule} {made : Rule} : raw.check = .ok made ↔
    raw.keyword = .text made.keyword ∧ made.keyword ≠ "" ∧ raw.rank = .int made.rank ∧
      raw.decompositions.mapM (RawDecomposition.check made.keyword) = .ok made.decompositions := by
  obtain ⟨keyword, rank, ds⟩ := raw
  obtain ⟨keyword', rank', made⟩ := made
  constructor
  · intro checked
    rw [check] at checked
    dsimp only at checked
    split at checked
    · split at checked
      · contradiction
      · next given =>
        split at checked
        · obtain ⟨_, each, same⟩ := bind_eq_ok.mp checked
          cases same
          exact ⟨rfl, fun empty => given (String.isEmpty_iff.mpr empty), rfl, each⟩
        · contradiction
    · contradiction
  · rintro ⟨rfl, given, rfl, each⟩
    have nonempty : keyword'.isEmpty = false := by simpa using given
    rw [check]
    simp only [nonempty]
    exact bind_eq_ok.mpr ⟨made, each, rfl⟩

theorem reported_eq_ok {α : Type} {x : Except ScriptProblem α} {a : α} :
    reported x = .ok a ↔ x = .ok a := by
  cases x <;> simp [reported]

theorem RawRule.reported_keyword {raw : RawRule} {r : Rule} (done : reported raw.check = .ok r) :
    r.keyword ≠ "" := (check_eq_ok.mp (reported_eq_ok.mp done)).2.1

theorem Rule.ofList_keyword {entry : Data} {r : Rule} (read : Rule.ofList entry = .ok r) :
    r.keyword ≠ "" := by
  rw [Rule.ofList] at read
  split at read
  · exact RawRule.reported_keyword read
  · contradiction

theorem Rule.ofMap_keyword {entry : Data} {r : Rule} (read : Rule.ofMap entry = .ok r) :
    r.keyword ≠ "" := by
  rw [Rule.ofMap] at read
  split at read
  · split at read
    · obtain ⟨_, _, read⟩ := bind_eq_ok.mp read
      obtain ⟨_, _, read⟩ := bind_eq_ok.mp read
      exact RawRule.reported_keyword read
    · contradiction
  · contradiction

theorem Rule.ofData_keyword {entry : Data} {r : Rule} (read : Rule.ofData entry = .ok r) :
    r.keyword ≠ "" := by
  rw [Rule.ofData] at read
  split at read
  · exact Rule.ofMap_keyword read
  · exact Rule.ofList_keyword read

/-- In a script that has been read no keyword is empty, and no word has synonyms twice. -/
theorem ofData_read {value : Data} {s : Script} (read : ofData value = .ok s) : s.Read := by
  rw [ofData_eq] at read
  cases given : value.entries? with
  | none =>
    rw [given] at read
    contradiction
  | some entries =>
    simp only [given, Option.elim_some, ofEntries, partsOfEntries, bind_eq_ok] at read
    obtain ⟨keywords, _, _, _, rules, made, groups, _, _, _, _, _, _, _, _, _, _, _, _, _, same⟩ := read
    cases same
    constructor
    · intro r member
      obtain ⟨entry, _, read⟩ := exists_of_mem_right (mapM_eq_ok.mp made) member
      exact Rule.ofData_keyword read
    · rw [Synonym.distinct_eq]
      exact Keyed.nodup_ofList Synonym.word groups

/-! Each part read back. -/

theorem textOf_text (s : String) : textOf (.text s) = .ok s := rfl

theorem textsOf_texts (part : String) (items : List String) :
    textsOf part (some (.texts items)) = .ok items := by
  cases items with
  | nil => rfl
  | cons s rest => exact mapM_map_ok fun a _ => textOf_text a

theorem partsOf_list (items : List Data) : partsOf (some (.list items)) = .ok items := by
  cases items with
  | nil => rfl
  | cons item rest => rfl

theorem substitutionData_eq (pairs : List Substitution) :
    substitutionData pairs = .map ((Keyed.condensed Substitution.word pairs).map fun e =>
      (.text e.word, .text e.replacement)) := by
  have entries : Data.entriesOf (pairs.map fun e => (.text e.word, .text e.replacement)) =
      (Keyed.ofList Substitution.word pairs).map fun e => (.text e.word, .text e.replacement) := by
    induction pairs using List.reverseRecOn with
    | nil => rfl
    | append_singleton pairs p ih =>
      rw [Keyed.ofList_concat, ← Data.insert_text, ← ih, List.map_append, Data.entriesOf,
        List.map_singleton, List.foldl_concat]
      rfl
  rw [substitutionData, Data.ofPairs, entries, Keyed.ofList_eq_condensed]

/-- Substitutions written as data are read back without a word repeated. -/
theorem substitutionsOf_data (part : String) (pairs : List Substitution) :
    substitutionsOf part (some (substitutionData pairs)) =
      .ok (Keyed.condensed Substitution.word pairs) := by
  rw [substitutionData_eq]
  cases Keyed.condensed Substitution.word pairs with
  | nil => rfl
  | cons e rest => exact mapM_map_ok fun _ _ => rfl

theorem retouchesOf_data (retouches : List Retouch) :
    retouchesOf (some (.list (retouches.map Retouch.toData))) = .ok retouches := by
  cases retouches with
  | nil => rfl
  | cons r rest => exact mapM_map_ok fun _ _ => rfl

theorem synonymOf_data (y : Synonym) : synonymOf (.text y.word, .texts y.equivalents) = .ok y := by
  have words : (y.equivalents.map Data.text).mapM textOf = .ok y.equivalents :=
    mapM_map_ok fun s _ => textOf_text s
  rw [synonymOf, Data.texts, partsOf_list]
  dsimp only [textOf_text]
  exact bind_eq_ok.mpr ⟨_, rfl, bind_eq_ok.mpr ⟨_, rfl, bind_eq_ok.mpr ⟨_, words, rfl⟩⟩⟩

theorem RawDecomposition.ofMap_data (keyword : Data) (d : Decomposition) :
    RawDecomposition.ofMap keyword d.toData =
      .ok ⟨.text d.pattern, d.reassemblies.map .text⟩ :=
  bind_eq_ok.mpr ⟨_, partsOf_list _, rfl⟩

/-- A rule written as data is read back. -/
theorem Rule.ofData_data {r : Rule} (given : r.keyword ≠ "") : Rule.ofData r.toData = .ok r := by
  have decompositions : (r.decompositions.map Decomposition.toData).mapM
      (RawDecomposition.ofMap (.text r.keyword)) =
        .ok (r.decompositions.map fun d => ⟨.text d.pattern, d.reassemblies.map .text⟩) := by
    rw [mapM_eq_ok, List.forall₂_map_left_iff, List.forall₂_map_right_iff]
    exact List.forall₂_same.mpr fun d _ => RawDecomposition.ofMap_data _ d
  have each : (r.decompositions.map fun d => (⟨.text d.pattern, d.reassemblies.map .text⟩ : RawDecomposition)).mapM
      (RawDecomposition.check r.keyword) = .ok r.decompositions :=
    mapM_map_ok fun d _ => RawDecomposition.check_eq_ok.mpr ⟨rfl, rfl⟩
  refine bind_eq_ok.mpr ⟨_, partsOf_list _, bind_eq_ok.mpr ⟨_, decompositions, ?_⟩⟩
  exact reported_eq_ok.mpr (RawRule.check_eq_ok.mpr ⟨rfl, given, rfl, each⟩)

theorem sectionOf_list (problem : ScriptProblem) (items : List Data) :
    sectionOf Data.items? problem (some (.list items)) = .ok items := by
  cases items with
  | nil => rfl
  | cons item rest => rfl

theorem sectionOf_map (problem : ScriptProblem) (entries : List (Data × Data)) :
    sectionOf Data.entries? problem (some (.map entries)) = .ok entries := by
  cases entries with
  | nil => rfl
  | cons entry rest => rfl

/-- A script that has been read is written as data that reads back as the condensed script. -/
theorem ofData_toData {s : Script} (read : s.Read) : ofData s.toData = .ok s.condensed := by
  have rules : (s.rules.map Rule.toData).mapM Rule.ofData = .ok s.rules :=
    mapM_map_ok fun r member => Rule.ofData_data (read.keywords r member)
  have groups : (s.synonyms.map fun y => (Data.text y.word, Data.texts y.equivalents)).mapM synonymOf =
      .ok s.synonyms := mapM_map_ok fun y _ => synonymOf_data y
  have distinct : Synonym.distinct s.synonyms = s.synonyms := by
    rw [Synonym.distinct_eq]
    exact Keyed.ofList_of_nodup read.synonyms
  rw [ofData_eq, condensed]
  refine bind_eq_ok.mpr ⟨_, sectionOf_list _ _, bind_eq_ok.mpr ⟨_, sectionOf_map _ _, ?_⟩⟩
  refine bind_eq_ok.mpr ⟨_, rules, bind_eq_ok.mpr ⟨_, groups, ?_⟩⟩
  refine bind_eq_ok.mpr ⟨_, substitutionsOf_data "pres" s.pres, ?_⟩
  refine bind_eq_ok.mpr ⟨_, substitutionsOf_data "posts" s.posts, ?_⟩
  refine bind_eq_ok.mpr ⟨_, retouchesOf_data s.retouches, ?_⟩
  refine bind_eq_ok.mpr ⟨_, textsOf_texts "quits" s.quits, ?_⟩
  refine bind_eq_ok.mpr ⟨_, textsOf_texts "initials" s.initials, ?_⟩
  refine bind_eq_ok.mpr ⟨_, textsOf_texts "finals" s.finals, ?_⟩
  rw [distinct]
  rfl

/-- A script without repeated words is made into the same rule set. -/
theorem compile_condensed (s : Script) : s.condensed.compile = s.compile := by
  simp only [compile, Rules.compileSet, Rules.ruleSetOf, condensed, Substitutions.ofPairs_condensed]

/-- A script that has been read is read back from its data as it is, but that no word is repeated among
the substitutions, and either of the two makes the same rule set or fails in the same way. -/
theorem read_back (value : Data) (s : Script) (read : ofData value = .ok s) :
    ofData s.toData = .ok s.condensed ∧ s.condensed.compile = s.compile :=
  ⟨ofData_toData (ofData_read read), compile_condensed s⟩

/-- Data with a word that is replaced twice, and with parts that stand for nothing. -/
def repetitive : Data :=
  .map [(.text "keywords", .list [.list [.text "xnone", .int 0,
      .list [.pair (.text "*") (.texts ["Go on."])]]]),
    (.text "pres", .list [.texts ["dont", "don't"], .pair (.text "1") (.int 1),
      .texts ["dont", "do not"]]),
    (.text "synonyms", .null), (.text "quits", .int 0)]

theorem repetitive_read_back : ∃ s, ofData repetitive = .ok s ∧
    s.pres = [⟨"dont", "don't"⟩, ⟨"1", "1"⟩, ⟨"dont", "do not"⟩] ∧
    ofData s.toData = .ok { s with pres := [⟨"dont", "do not"⟩, ⟨"1", "1"⟩] } ∧
    { s with pres := [⟨"dont", "do not"⟩, ⟨"1", "1"⟩] }.compile = s.compile := by
  have checked : (ofData repetitive).toOption.any fun s =>
      decide (s.pres = [⟨"dont", "don't"⟩, ⟨"1", "1"⟩, ⟨"dont", "do not"⟩] ∧ s.posts = []) := by
    decide +kernel
  obtain ⟨s, read, fits⟩ := exists_of_any checked
  obtain ⟨pres, posts⟩ := of_decide_eq_true fits
  have last : Keyed.condensed Substitution.word s.pres = [⟨"dont", "do not"⟩, ⟨"1", "1"⟩] := by
    rw [pres]
    decide
  have nothing : Keyed.condensed Substitution.word s.posts = s.posts := by
    rw [posts]
    rfl
  have back := read_back repetitive s read
  rw [condensed, last, nothing] at back
  exact ⟨s, read, pres, back⟩

end Script
end Colloquy
