import Colloquy.Proofs.Script.Apart
import Colloquy.Proofs.Script.Reports

/-! What is read where a script has lists of texts: the reassemblies of a decomposition and the
equivalents of a word. A list is read as it is, but so are the characters of a text, the keys of a map and
whatever else has parts. -/

namespace Colloquy

namespace Data

/-- The items of a list that is given, none if nothing or null is. -/
inductive Listed : Option Data → List Data → Prop
  | absent : Listed none []
  | null {value : Data} (null : value.bare = .null) : Listed (some value) []
  | list {value : Data} {items : List Data} (list : value.bare = .list items) : Listed (some value) items

variable {value : Data} {parts items : List Data} {value? : Option Data}

/-- What is taken apart where a list or null is given is the list. -/
theorem Apart.list (apart : value.Apart parts) (listed : Listed (some value) items) :
    value.bare = .list parts := by
  cases listed with
  | null null =>
    cases apart with
    | _ given => cases null.symm.trans given
  | list list =>
    cases apart with
    | items given => exact given
    | _ given => cases list.symm.trans given

/-- Where a list is given, or nothing or null, its items are what is taken of it. -/
theorem Offered.listed (offered : Offered value? parts) (listed : ∃ items, Listed value? items) :
    Listed value? parts := by
  obtain ⟨items, listed⟩ := listed
  cases offered with
  | absent => exact .absent
  | parts apart => exact .list (apart.list listed)
  | nothing nothing =>
    cases listed with
    | null null => exact .null null
    | list list => exact .list (list.trans (congrArg Data.list (Apart.eq_nil (.items list) nothing)))

theorem Listed.offered (listed : Listed value? items) : Offered value? items := by
  cases listed with
  | absent => exact .absent
  | null null => exact .nothing (by rw [← isTruthy_bare, null]; rfl)
  | list list => exact .parts (.items list)

/-- A text, a number or a map. -/
inductive Misgiven (value : Data) : Prop
  | text {s : String} (text : value.bare = .text s)
  | int {i : Int} (int : value.bare = .int i)
  | float {x : Double} (float : value.bare = .float x)
  | map {entries : List (Data × Data)} (map : value.bare = .map entries)

/-- None of these is a list. -/
theorem Misgiven.not_listed (misgiven : value.Misgiven) : ¬ Listed (some value) items := by
  intro listed
  cases listed with
  | null null =>
    cases misgiven with
    | _ given => cases given.symm.trans null
  | list list =>
    cases misgiven with
    | _ given => cases given.symm.trans list

end Data

namespace Script

open Data (Apart Offered Listed)
open Pattern (Synonym)

def asGiven : ListReading := ⟨fun value items => value.bare = .list items, Listed⟩

/-! Where lists of texts belong. -/

/-- The places of a rule where a list of reassemblies belongs, with what stands there, if anything does. -/
inductive Rule.ListPlace (entry : Data) : Option Data → Prop
  | ofMap {rule fields : List (Data × Data)} {ds : List Data} {d : Data} (map : entry.entries? = some rule)
    (apart : Offered (Data.field? "decompositions" rule) ds) (inside : d ∈ ds)
    (given : d.entries? = some fields) : ListPlace entry (Data.field? "reassemblies" fields)
  | ofList {decompositions d value : Data} {ds : List Data} (list : entry.entries? = none)
    (third : entry.at? 2 = .ok decompositions) (apart : decompositions.Apart ds) (inside : d ∈ ds)
    (second : d.at? 1 = .ok value) : ListPlace entry (some value)

/-- The places of a script where a list of reassemblies or of equivalents belongs. -/
inductive ListPlace (entries : List (Data × Data)) : Option Data → Prop
  | rule {keywords : List Data} {entry : Data} {place : Option Data}
    (listed : sectionOf Data.items? .keywordsNotList (Data.field? "keywords" entries) = .ok keywords)
    (member : entry ∈ keywords) (inside : Rule.ListPlace entry place) : ListPlace entries place
  | synonym {groups : List (Data × Data)} {entry : Data × Data}
    (mapped : sectionOf Data.entries? .synonymsNotMapping (Data.field? "synonyms" entries) = .ok groups)
    (member : entry ∈ groups) : ListPlace entries (some entry.2)

/-- Whether only lists stand in some places, or null or nothing. -/
def AllListed (places : Option Data → Prop) : Prop := ∀ place, places place → ∃ items, Listed place items

theorem Decomposition.fromList_asGiven (d : Data) (made : Decomposition) :
    Decomposition.FromList asGiven d made ↔
      (∀ value, d.at? 1 = .ok value → ∃ items, Listed (some value) items) ∧
        Decomposition.FromList takenApart d made := by
  constructor
  · rintro ⟨first, value, second, list⟩
    refine ⟨fun other found => ?_, first, value, second, .items list⟩
    cases found.symm.trans second
    exact ⟨_, .list list⟩
  · rintro ⟨listed, first, value, second, apart⟩
    obtain ⟨items, listed⟩ := listed value second
    exact ⟨first, value, second, apart.list listed⟩

theorem Decomposition.fromMap_asGiven (d : Data) (made : Decomposition) :
    Decomposition.FromMap asGiven d made ↔
      (∀ fields, d.entries? = some fields → ∃ items, Listed (Data.field? "reassemblies" fields) items) ∧
        Decomposition.FromMap takenApart d made := by
  constructor
  · rintro ⟨fields, map, pattern, listed⟩
    refine ⟨fun others found => ?_, fields, map, pattern, listed.offered⟩
    cases found.symm.trans map
    exact ⟨_, listed⟩
  · rintro ⟨listed, fields, map, pattern, offered⟩
    exact ⟨fields, map, pattern, offered.listed (listed fields map)⟩

/-- A rule is read without taking anything apart just if only lists stand where they belong. -/
theorem Rule.from_asGiven (entry : Data) (made : Rule) :
    Rule.From asGiven entry made ↔
      AllListed (Rule.ListPlace entry) ∧ Rule.From takenApart entry made := by
  rw [Rule.From, Rule.From]
  cases found : entry.entries? with
  | some rule =>
    constructor
    · rintro ⟨keyword, given, rank, ds, apart, each⟩
      obtain ⟨listed, each⟩ := (forall₂_iff_and Decomposition.fromMap_asGiven).mp each
      refine ⟨fun place inside => ?_, keyword, given, rank, ds, apart, each⟩
      cases inside with
      | ofMap map apart' inside fields =>
        cases found.symm.trans map
        cases offered_unique apart apart'
        exact listed _ inside _ fields
      | ofList list => cases list.symm.trans found
    · rintro ⟨listed, keyword, given, rank, ds, apart, each⟩
      refine ⟨keyword, given, rank, ds, apart, (forall₂_iff_and Decomposition.fromMap_asGiven).mpr ⟨?_, each⟩⟩
      exact fun d inside fields map => listed _ (.ofMap found apart inside map)
  | none =>
    constructor
    · rintro ⟨keyword, given, rank, value, ds, third, apart, each⟩
      obtain ⟨listed, each⟩ := (forall₂_iff_and Decomposition.fromList_asGiven).mp each
      refine ⟨fun place inside => ?_, keyword, given, rank, value, ds, third, apart, each⟩
      cases inside with
      | ofMap map => cases map.symm.trans found
      | ofList _ third' apart' inside second =>
        cases third.symm.trans third'
        cases apart.unique apart'
        exact listed _ inside _ second
    · rintro ⟨listed, keyword, given, rank, value, ds, third, apart, each⟩
      refine ⟨keyword, given, rank, value, ds, third, apart,
        (forall₂_iff_and Decomposition.fromList_asGiven).mpr ⟨?_, each⟩⟩
      exact fun d inside value second => listed _ (.ofList found third apart inside second)

theorem synonymFrom_asGiven (entry : Data × Data) (made : Synonym) :
    SynonymFrom asGiven entry made ↔
      (∃ items, Listed (some entry.2) items) ∧ SynonymFrom takenApart entry made := by
  constructor
  · rintro ⟨word, parts, listed, each⟩
    exact ⟨⟨parts, listed⟩, word, parts, listed.offered, each⟩
  · rintro ⟨listed, word, parts, offered, each⟩
    exact ⟨word, parts, offered.listed listed, each⟩

/-- A script is read without taking anything apart just if only lists stand where they belong. -/
theorem fromEntries_asGiven (entries : List (Data × Data)) (s : Script) :
    FromEntries asGiven entries s ↔
      AllListed (ListPlace entries) ∧ FromEntries takenApart entries s := by
  constructor
  · intro read
    obtain ⟨keywords, listed, rules⟩ := read.rules
    obtain ⟨groups, mapped, made, synonyms, distinct⟩ := read.synonyms
    obtain ⟨reassemblies, rules⟩ := (forall₂_iff_and Rule.from_asGiven).mp rules
    obtain ⟨equivalents, synonyms⟩ := (forall₂_iff_and synonymFrom_asGiven).mp synonyms
    refine ⟨fun place inside => ?_, { read with
      rules := ⟨keywords, listed, rules⟩, synonyms := ⟨groups, mapped, made, synonyms, distinct⟩ }⟩
    cases inside with
    | rule listed' member inside =>
      cases listed.symm.trans listed'
      exact reassemblies _ member _ inside
    | synonym mapped' member =>
      cases mapped.symm.trans mapped'
      exact equivalents _ member
  · rintro ⟨all, read⟩
    obtain ⟨keywords, listed, rules⟩ := read.rules
    obtain ⟨groups, mapped, made, synonyms, distinct⟩ := read.synonyms
    have rules := (forall₂_iff_and Rule.from_asGiven).mpr
      ⟨fun entry member place inside => all place (.rule listed member inside), rules⟩
    have synonyms := (forall₂_iff_and synonymFrom_asGiven).mpr
      ⟨fun entry member => all _ (.synonym mapped member), synonyms⟩
    exact { read with
      rules := ⟨keywords, listed, rules⟩, synonyms := ⟨groups, mapped, made, synonyms, distinct⟩ }

/-! What the reading of a script keeps. -/

/-- Whether a script is read without taking anything apart that is no list: what is read comes from lists,
and a text, a number or a map in the place of one is reported. -/
structure Literal (value : Data) : Prop where
  kept : ∀ s, ofData value = .ok s → From asGiven value s
  refused : ∀ entries place, value.entries? = some entries → ListPlace entries (some place) → place.Misgiven →
    ∃ p, ofData value = .error (.reported p) ∧ .script ∈ p.report.family.ancestry

/-- A script is read just if each of its parts can be taken apart. Its lists are those of the data, and a text,
a number or a map in the place of one is refused, just if two things hold: only lists, null or nothing stand
where lists belong if the script can be read, and nothing escapes if a text, a number or a map stands there. -/
theorem lists_kept_iff (value : Data) :
    (∀ s, ofData value = .ok s ↔ From takenApart value s) ∧
      (Literal value ↔ ∀ entries, value.entries? = some entries →
        ((∃ s, FromEntries takenApart entries s) → AllListed (ListPlace entries)) ∧
          ((∃ place, ListPlace entries (some place) ∧ place.Misgiven) →
            ¬ FirstOf (Stage.read entries) (Stage.Escapes entries) Stage.all)) := by
  refine ⟨fun s => ofData_eq_ok, ?_⟩
  constructor
  · rintro ⟨kept, refused⟩ entries map
    constructor
    · rintro ⟨s, read⟩
      obtain ⟨entries', map', given⟩ := kept s (ofData_eq_ok.mpr ⟨entries, map, read⟩)
      cases map.symm.trans map'
      exact ((fromEntries_asGiven entries s).mp given).1
    · rintro ⟨place, inside, misgiven⟩ escapes
      have reports : Reports (ofData value) := .inr (refused entries place map inside misgiven)
      exact (reports_ofData value).mp reports ⟨entries, map, escapes⟩
  · intro fine
    constructor
    · intro s read
      obtain ⟨entries, map, read⟩ := ofData_eq_ok.mp read
      have listed := (fine entries map).1 ⟨s, read⟩
      exact ⟨entries, map, (fromEntries_asGiven entries s).mpr ⟨listed, read⟩⟩
    · intro entries place map inside misgiven
      have reports : Reports (ofData value) := by
        rw [reports_ofData]
        rintro ⟨entries', map', escapes⟩
        cases map.symm.trans map'
        exact (fine entries map).2 ⟨place, inside, misgiven⟩ escapes
      rcases reports with ⟨s, read⟩ | refused
      · obtain ⟨entries', map', read⟩ := ofData_eq_ok.mp read
        cases map.symm.trans map'
        obtain ⟨items, listed⟩ := (fine entries map).1 ⟨s, read⟩ _ inside
        exact absurd listed misgiven.not_listed
      · exact refused

def spelledFields : List (Data × Data) :=
  [(.text "pattern", .text "*"), (.text "reassemblies", .text "Go on.")]

def spelledRule : List (Data × Data) :=
  [(.text "keyword", .text "xnone"), (.text "decompositions", .list [.map spelledFields])]

def spelled : Data := .map [(.text "keywords", .list [.map spelledRule])]

theorem spelled_apart : (∃ s, ofData spelled = .ok s ∧
    s.rules = [⟨"xnone", 0, [⟨"*", ["G", "o", " ", "o", "n", "."]⟩]⟩]) ∧ ¬ Literal spelled := by
  have read : ofData spelled =
      .ok { empty with rules := [⟨"xnone", 0, [⟨"*", ["G", "o", " ", "o", "n", "."]⟩]⟩] } := rfl
  have decompositions : Offered (Data.field? "decompositions" spelledRule) [.map spelledFields] :=
    .parts (.items rfl)
  have inside : Rule.ListPlace (.map spelledRule) (some (.text "Go on.")) :=
    .ofMap rfl decompositions List.mem_cons_self rfl
  refine ⟨⟨_, read, rfl⟩, fun literal => ?_⟩
  obtain ⟨p, refused, _⟩ := literal.refused _ _ rfl (.rule rfl List.mem_cons_self inside) (.text rfl)
  cases read.symm.trans refused

end Script
end Colloquy
