import Colloquy.Proofs.Data
import Colloquy.Proofs.Script.ReadBack

/-! How a script is read from data, as a relation: which parts of the data become which parts of the script.
Where a list of texts belongs, whatever has parts is taken apart. -/

namespace Colloquy

namespace Data

/-- The parts that a value is taken apart into: the items of a list, the characters of a text, the keys of
a map, the members of a set, both parts of a pair, bytes as numbers. -/
inductive Apart (value : Data) : List Data → Prop
  | items {items : List Data} (list : value.bare = .list items) : value.Apart items
  | characters {s : String} (text : value.bare = .text s) : value.Apart (s.toList.map ofChar)
  | keys {entries : List (Data × Data)} (map : value.bare = .map entries) :
    value.Apart (entries.map Prod.fst)
  | members {members : List Data} (set : value.bare = .set members) : value.Apart members
  | both {first second : Data} (pair : value.bare = .pair first second) : value.Apart [first, second]
  | numbers {bs : List UInt8} (bytes : value.bare = .bytes bs) : value.Apart (bs.map ofByte)

/-- What an optional part is taken apart into: nothing if it is left out or stands for nothing. -/
inductive Offered : Option Data → List Data → Prop
  | absent : Offered none []
  | nothing {value : Data} (nothing : value.isTruthy = false) : Offered (some value) []
  | parts {value : Data} {parts : List Data} (apart : value.Apart parts) : Offered (some value) parts

variable {value : Data} {parts : List Data}

/-- To have parts is to be taken apart into them. -/
theorem parts?_eq_ok : value.parts? = .ok parts ↔ value.Apart parts := by
  constructor
  · intro apart
    rw [parts?] at apart
    split at apart
    · next found => exact Except.ok.inj apart ▸ .items found
    · next found => exact Except.ok.inj apart ▸ .both found
    · next found => exact Except.ok.inj apart ▸ .members found
    · next found => exact Except.ok.inj apart ▸ .characters found
    · next found => exact Except.ok.inj apart ▸ .numbers found
    · next found => exact Except.ok.inj apart ▸ .keys found
    · contradiction
  · intro apart
    cases apart with
    | _ given => rw [parts?, given]

/-- What stands for nothing has no parts. -/
theorem Apart.eq_nil (apart : value.Apart parts) (nothing : value.isTruthy = false) : parts = [] := by
  rw [← isTruthy_bare] at nothing
  cases apart with
  | both given =>
    rw [given] at nothing
    contradiction
  | _ given =>
    rw [given] at nothing
    simpa [isTruthy] using nothing

theorem Apart.unique {others : List Data} (apart : value.Apart parts) (apart' : value.Apart others) :
    parts = others :=
  Except.ok.inj ((parts?_eq_ok.mpr apart).symm.trans (parts?_eq_ok.mpr apart'))

end Data

namespace Script

open Data (Apart Offered)
open Pattern (Synonym)

theorem partsOf_eq_ok {value? : Option Data} {parts : List Data} :
    partsOf value? = .ok parts ↔ Offered value? parts := by
  constructor
  · intro read
    cases value? with
    | none =>
      cases read
      exact .absent
    | some value =>
      rw [partsOf] at read
      split at read
      · split at read
        · next apart =>
          cases read
          exact .parts (Data.parts?_eq_ok.mp apart)
        · contradiction
      · next nothing =>
        cases read
        exact .nothing (by simpa using nothing)
  · intro offered
    cases offered with
    | absent => rfl
    | nothing nothing => rw [partsOf, nothing]; rfl
    | @parts value _ apart =>
      rw [partsOf, Data.parts?_eq_ok.mpr apart]
      cases truthy : value.isTruthy with
      | true => rfl
      | false => rw [apart.eq_nil truthy]; rfl

theorem offered_unique {value? : Option Data} {parts others : List Data} (offered : Offered value? parts)
    (offered' : Offered value? others) : parts = others :=
  Except.ok.inj ((partsOf_eq_ok.mpr offered).symm.trans (partsOf_eq_ok.mpr offered'))

/-! How a rule is read, and how a script is. -/

/-- How values are read where a list of texts belongs, if they have to be there and if they need not. -/
structure ListReading where
  given : Data → List Data → Prop
  offered : Option Data → List Data → Prop

/-- Anything that has parts is taken apart. -/
def takenApart : ListReading := ⟨Apart, Offered⟩

variable (reading : ListReading)

/-- How a decomposition is read from a list. -/
structure Decomposition.FromList (d : Data) (made : Decomposition) : Prop where
  pattern : d.at? 0 = .ok (.text made.pattern)
  reassemblies : ∃ value, d.at? 1 = .ok value ∧ reading.given value (made.reassemblies.map .text)

/-- How a decomposition is read from a map. -/
structure Decomposition.FromMap (d : Data) (made : Decomposition) : Prop where
  fields : ∃ entries, d.entries? = some entries ∧
    Data.field? "pattern" entries = some (.text made.pattern) ∧
    reading.offered (Data.field? "reassemblies" entries) (made.reassemblies.map .text)

/-- How a rule is read from a list. -/
structure Rule.FromList (entry : Data) (made : Rule) : Prop where
  keyword : entry.at? 0 = .ok (.text made.keyword)
  given : made.keyword ≠ ""
  rank : entry.at? 1 = .ok (.int made.rank)
  decompositions : ∃ value parts, entry.at? 2 = .ok value ∧ value.Apart parts ∧
    List.Forall₂ (Decomposition.FromList reading) parts made.decompositions

/-- How a rule is read from a map. -/
structure Rule.FromMap (entries : List (Data × Data)) (made : Rule) : Prop where
  keyword : Data.field? "keyword" entries = some (.text made.keyword)
  given : made.keyword ≠ ""
  rank : (Data.field? "rank" entries).getD (.int 0) = .int made.rank
  decompositions : ∃ parts, Offered (Data.field? "decompositions" entries) parts ∧
    List.Forall₂ (Decomposition.FromMap reading) parts made.decompositions

def Rule.From (entry : Data) (made : Rule) : Prop :=
  match entry.entries? with
  | some entries => Rule.FromMap reading entries made
  | none => Rule.FromList reading entry made

/-- How the synonyms of a word are read. -/
structure SynonymFrom (entry : Data × Data) (made : Synonym) : Prop where
  word : textOf entry.1 = .ok made.word
  equivalents : ∃ parts, reading.offered (some entry.2) parts ∧
    List.Forall₂ (fun part text => textOf part = .ok text) parts made.equivalents

/-- How a script is read from the entries of a map. -/
structure FromEntries (entries : List (Data × Data)) (s : Script) : Prop where
  rules : ∃ keywords, sectionOf Data.items? .keywordsNotList (Data.field? "keywords" entries) = .ok keywords ∧
    List.Forall₂ (Rule.From reading) keywords s.rules
  synonyms : ∃ groups, sectionOf Data.entries? .synonymsNotMapping (Data.field? "synonyms" entries) = .ok groups ∧
    ∃ made, List.Forall₂ (SynonymFrom reading) groups made ∧ s.synonyms = Synonym.distinct made
  pres : substitutionsOf "pres" (Data.field? "pres" entries) = .ok s.pres
  posts : substitutionsOf "posts" (Data.field? "posts" entries) = .ok s.posts
  retouches : retouchesOf (Data.field? "post_transforms" entries) = .ok s.retouches
  quits : textsOf "quits" (Data.field? "quits" entries) = .ok s.quits
  initials : textsOf "initials" (Data.field? "initials" entries) = .ok s.initials
  finals : textsOf "finals" (Data.field? "finals" entries) = .ok s.finals

def From (value : Data) (s : Script) : Prop :=
  ∃ entries, value.entries? = some entries ∧ FromEntries reading entries s

/-! What is read is what has parts. -/

theorem Decomposition.fromList_iff {d : Data} {made : Decomposition} (keyword : String) :
    (∃ raw, RawDecomposition.ofList d = .ok raw ∧ raw.check keyword = .ok made) ↔
      Decomposition.FromList takenApart d made := by
  simp only [RawDecomposition.ofList, bind_eq_ok, RawDecomposition.check_eq_ok, Data.parts?_eq_ok]
  constructor
  · rintro ⟨_, ⟨pattern, first, value, second, parts, apart, ⟨⟩⟩, rfl, rfl⟩
    exact ⟨first, value, second, apart⟩
  · rintro ⟨first, value, second, apart⟩
    exact ⟨_, ⟨_, first, value, second, _, apart, rfl⟩, rfl, rfl⟩

theorem Decomposition.fromMap_iff {d : Data} {made : Decomposition} (keyword : Data) (name : String) :
    (∃ raw, RawDecomposition.ofMap keyword d = .ok raw ∧ raw.check name = .ok made) ↔
      Decomposition.FromMap takenApart d made := by
  constructor
  · rintro ⟨raw, read, checked⟩
    rw [RawDecomposition.ofMap] at read
    split at read
    · next entries map =>
      split at read
      · next pattern found =>
        obtain ⟨parts, apart, same⟩ := bind_eq_ok.mp read
        cases same
        obtain ⟨rfl, rfl⟩ := RawDecomposition.check_eq_ok.mp checked
        exact ⟨entries, map, found, partsOf_eq_ok.mp apart⟩
      · contradiction
    · contradiction
  · rintro ⟨entries, map, found, apart⟩
    refine ⟨⟨.text made.pattern, made.reassemblies.map .text⟩, ?_, RawDecomposition.check_eq_ok.mpr ⟨rfl, rfl⟩⟩
    rw [RawDecomposition.ofMap, map]
    dsimp only
    rw [found]
    exact bind_eq_ok.mpr ⟨_, partsOf_eq_ok.mpr apart, rfl⟩

theorem Rule.ofList_eq_ok {entry : Data} {made : Rule} :
    Rule.ofList entry = .ok made ↔ Rule.FromList takenApart entry made := by
  have first : Rule.ofList entry = .ok made ↔
      ∃ raw, RawRule.ofList entry = .ok raw ∧ raw.check = .ok made := by
    rw [Rule.ofList]
    cases RawRule.ofList entry <;> simp [reported_eq_ok]
  simp only [first, RawRule.ofList, bind_eq_ok, RawRule.check_eq_ok, Data.parts?_eq_ok]
  constructor
  · rintro ⟨_, ⟨_, keyword, _, rank, value, third, parts, apart, raws, each, ⟨⟩⟩, rfl, given, rfl, checks⟩
    refine ⟨keyword, given, rank, value, parts, third, apart, ?_⟩
    exact (exists_mapM_mapM.mp ⟨raws, each, checks⟩).imp fun _ _ =>
      (Decomposition.fromList_iff made.keyword).mp
  · rintro ⟨keyword, given, rank, value, parts, third, apart, each⟩
    obtain ⟨raws, each, checks⟩ := exists_mapM_mapM.mpr
      (each.imp fun _ _ => (Decomposition.fromList_iff made.keyword).mpr)
    exact ⟨_, ⟨_, keyword, _, rank, value, third, parts, apart, raws, each, rfl⟩, rfl, given, rfl, checks⟩

theorem Rule.ofMap_eq_ok {entry : Data} {entries : List (Data × Data)} {made : Rule}
    (map : entry.entries? = some entries) :
    Rule.ofMap entry = .ok made ↔ Rule.FromMap takenApart entries made := by
  rw [Rule.ofMap, map]
  dsimp only
  constructor
  · intro read
    split at read
    · next keyword named =>
      obtain ⟨parts, apart, read⟩ := bind_eq_ok.mp read
      obtain ⟨raws, each, read⟩ := bind_eq_ok.mp read
      obtain ⟨rfl, given, rank, checks⟩ := RawRule.check_eq_ok.mp (reported_eq_ok.mp read)
      refine ⟨named, given, rank, parts, partsOf_eq_ok.mp apart, ?_⟩
      exact (exists_mapM_mapM.mp ⟨raws, each, checks⟩).imp fun _ _ =>
        (Decomposition.fromMap_iff (.text made.keyword) made.keyword).mp
    · contradiction
  · rintro ⟨named, given, rank, parts, apart, each⟩
    obtain ⟨raws, each, checks⟩ := exists_mapM_mapM.mpr
      (each.imp fun _ _ => (Decomposition.fromMap_iff (.text made.keyword) made.keyword).mpr)
    rw [named]
    refine bind_eq_ok.mpr ⟨parts, partsOf_eq_ok.mpr apart, bind_eq_ok.mpr ⟨raws, each, ?_⟩⟩
    exact reported_eq_ok.mpr (RawRule.check_eq_ok.mpr ⟨rfl, given, rank, checks⟩)

/-- A rule is read just if its value is made of the parts that the rule has. -/
theorem Rule.ofData_eq_ok {entry : Data} {made : Rule} :
    Rule.ofData entry = .ok made ↔ Rule.From takenApart entry made := by
  rw [Rule.ofData, Rule.From]
  cases map : entry.entries? with
  | some entries => exact Rule.ofMap_eq_ok map
  | none => exact Rule.ofList_eq_ok

theorem synonymOf_eq_ok {entry : Data × Data} {made : Synonym} :
    synonymOf entry = .ok made ↔ SynonymFrom takenApart entry made := by
  simp only [synonymOf, bind_eq_ok, partsOf_eq_ok, mapM_eq_ok]
  constructor
  · rintro ⟨word, first, parts, apart, texts, each, ⟨⟩⟩
    exact ⟨first, parts, apart, each⟩
  · rintro ⟨first, parts, apart, each⟩
    exact ⟨_, first, parts, apart, _, each, rfl⟩

theorem ofEntries_eq_ok {entries : List (Data × Data)} {s : Script} :
    ofEntries entries = .ok s ↔ FromEntries takenApart entries s := by
  simp only [ofEntries, partsOfEntries, bind_eq_ok, mapM_eq_ok, Rule.ofData_eq_ok, synonymOf_eq_ok]
  constructor
  · rintro ⟨keywords, listed, groups, mapped, rules, each, synonyms, grouped, pres, first, posts, second,
      retouches, third, quits, fourth, initials, fifth, finals, sixth, ⟨⟩⟩
    exact ⟨⟨keywords, listed, each⟩, ⟨groups, mapped, synonyms, grouped, rfl⟩, first, second, third, fourth,
      fifth, sixth⟩
  · obtain ⟨rules, synonyms, pres, posts, retouches, quits, initials, finals⟩ := s
    rintro ⟨⟨keywords, listed, each⟩, ⟨groups, mapped, made, grouped, rfl⟩, first, second, third, fourth, fifth,
      sixth⟩
    exact ⟨keywords, listed, groups, mapped, rules, each, made, grouped, pres, first, posts, second, retouches,
      third, quits, fourth, initials, fifth, finals, sixth, rfl⟩

/-- A script is read just if its value is made of the parts that the script has. -/
theorem ofData_eq_ok {value : Data} {s : Script} : ofData value = .ok s ↔ From takenApart value s := by
  rw [ofData_eq, From]
  cases value.entries? with
  | none => simp
  | some entries => simp [ofEntries_eq_ok]

end Script
end Colloquy
