import Colloquy.Script.OfData

/-! The reading of a script in its order: the shapes of the keywords and the synonyms first, then one
part after the other. -/

namespace Colloquy

def Data.pairs? (value : Data) : Option (List (Data × Data)) :=
  match value.entries? with
  | some entries => some entries
  | none => value.items?.bind (·.mapM two?)

namespace Script

variable {α β : Type}

/-- What a section is taken apart into: nothing if it is left out or stands for nothing. -/
def sectionOf (apart? : Data → Option (List α)) (problem : ScriptProblem) :
    Option Data → Except Failure (List α)
  | none => .ok []
  | some value =>
    if !value.isTruthy then .ok []
    else
      match apart? value with
      | some parts => .ok parts
      | none => .error (.script problem)

theorem sectionOf_bind (apart? : Data → Option (List α)) (problem : ScriptProblem)
    (value? : Option Data) (f : List α → Except Failure β) :
    sectionOf apart? problem value? >>= f =
      match value? with
      | none => f []
      | some value =>
        if !value.isTruthy then f []
        else
          match apart? value with
          | some parts => f parts
          | none => .error (.script problem) := by
  cases value? with
  | none => rfl
  | some value =>
    rw [sectionOf]
    dsimp only
    split
    · rfl
    · split <;> rfl

theorem textsOf_eq (part : String) (value? : Option Data) :
    textsOf part value? = sectionOf Data.items? (.notList part) value? >>= (·.mapM textOf) := by
  rw [sectionOf_bind]
  cases value? with
  | none => rfl
  | some value =>
    dsimp only [textsOf]
    cases value.isTruthy <;> cases value.items? <;> rfl

theorem retouchesOf_eq (value? : Option Data) :
    retouchesOf value? = sectionOf Data.items? .transformsNotList value? >>= (·.mapM retouchOf) := by
  rw [sectionOf_bind]
  cases value? with
  | none => rfl
  | some value =>
    dsimp only [retouchesOf]
    cases value.isTruthy <;> cases value.items? <;> rfl

theorem substitutionsOf_eq (part : String) (value? : Option Data) :
    substitutionsOf part value? =
      sectionOf Data.pairs? (.notPairs part) value? >>= (·.mapM substitutionOf) := by
  rw [sectionOf_bind]
  cases value? with
  | none => rfl
  | some value =>
    dsimp only [substitutionsOf, Data.pairs?]
    cases value.isTruthy with
    | false => rfl
    | true =>
      cases value.entries? with
      | some entries => rfl
      | none => cases value.items?.bind (·.mapM Data.two?) <;> rfl

/-- The parts of a script other than its keyword rules and synonyms, from the entries of a map. -/
def partsOfEntries (entries : List (Data × Data)) (rules : List Rule)
    (synonyms : List Pattern.Synonym) : Except Failure Script := do
  let pres ← substitutionsOf "pres" (Data.field? "pres" entries)
  let posts ← substitutionsOf "posts" (Data.field? "posts" entries)
  let retouches ← retouchesOf (Data.field? "post_transforms" entries)
  let quits ← textsOf "quits" (Data.field? "quits" entries)
  let initials ← textsOf "initials" (Data.field? "initials" entries)
  let finals ← textsOf "finals" (Data.field? "finals" entries)
  return ⟨rules, Pattern.Synonym.distinct synonyms, pres, posts, retouches, quits, initials, finals⟩

def ofEntries (entries : List (Data × Data)) : Except Failure Script := do
  let keywords ← sectionOf Data.items? .keywordsNotList (Data.field? "keywords" entries)
  let synonyms ← sectionOf Data.entries? .synonymsNotMapping (Data.field? "synonyms" entries)
  partsOfEntries entries (← keywords.mapM Rule.ofData) (← synonyms.mapM synonymOf)

/-- A script is read from the entries of a map, and from nothing else. -/
theorem ofData_eq (value : Data) :
    ofData value = value.entries?.elim (.error (.script .notMapping)) ofEntries := by
  rw [ofData]
  cases value.entries? with
  | none => rfl
  | some entries =>
    rw [Option.elim_some, ofEntries, sectionOf_bind]
    simp only [sectionOf_bind]
    cases Data.field? "keywords" entries with
    | none =>
      cases Data.field? "synonyms" entries with
      | none => rfl
      | some groups =>
        dsimp only
        cases groups.isTruthy <;> cases groups.entries? <;> rfl
    | some keywords =>
      cases Data.field? "synonyms" entries with
      | none =>
        dsimp only
        cases keywords.isTruthy <;> cases keywords.items? <;> rfl
      | some groups =>
        dsimp only
        cases keywords.isTruthy <;> cases keywords.items? <;>
          cases groups.isTruthy <;> cases groups.entries? <;> rfl

end Script
end Colloquy
