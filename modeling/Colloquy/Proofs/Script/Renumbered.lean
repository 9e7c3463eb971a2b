import Colloquy.Proofs.Failure
import Colloquy.Proofs.Script.Reading

/-! Scripts from values under other marks. A script is read just as it is without them. -/

namespace Colloquy

open Data

variable {ρ : Renumbering} {α β : Type}

namespace Script

def RawDecomposition.renumbered (ρ : Renumbering) (d : RawDecomposition) : RawDecomposition :=
  ⟨d.pattern.renumbered ρ, renumberedItems ρ d.reassemblies⟩

def RawRule.renumbered (ρ : Renumbering) (r : RawRule) : RawRule :=
  ⟨r.keyword.renumbered ρ, r.rank.renumbered ρ, r.decompositions.map (RawDecomposition.renumbered ρ)⟩

theorem RawDecomposition.check_renumbered (keyword : String) (d : RawDecomposition) :
    (d.renumbered ρ).check keyword = (d.check keyword).mapError (ScriptProblem.renumbered ρ) := by
  obtain ⟨pattern, reassemblies⟩ := d
  cases pattern with
  | text pattern =>
    simp only [renumbered, Data.renumbered, check, allTexts?_renumbered]
    cases allTexts? reassemblies <;> rfl
  | _ => rfl

theorem RawRule.check_renumbered (r : RawRule) :
    (r.renumbered ρ).check = r.check.mapError (ScriptProblem.renumbered ρ) := by
  obtain ⟨keyword, rank, decompositions⟩ := r
  cases keyword with
  | text keyword =>
    simp only [renumbered, Data.renumbered, check]
    split
    · rfl
    · cases rank with
      | int rank =>
        dsimp only [Data.renumbered]
        rw [mapM_mapError (RawDecomposition.check_renumbered keyword), mapError_bind]
        rfl
      | _ => rfl
  | _ => rfl

theorem RawDecomposition.ofList_renumbered (d : Data) :
    ofList (d.renumbered ρ) = (ofList d).map (renumbered ρ) := by
  rw [ofList, ofList, at?_renumbered, at?_renumbered]
  cases d.at? 0 with
  | error fault => rfl
  | ok pattern =>
    cases d.at? 1 with
    | error fault => rfl
    | ok reassemblies =>
      simp only [Except.map, ok_bind, parts?_renumbered]
      cases reassemblies.parts? <;> rfl

theorem RawRule.ofList_renumbered (entry : Data) : ofList (entry.renumbered ρ) = (ofList entry).map (renumbered ρ) := by
  rw [ofList, ofList, at?_renumbered, at?_renumbered, at?_renumbered]
  cases entry.at? 0 with
  | error fault => rfl
  | ok keyword =>
    cases entry.at? 1 with
    | error fault => rfl
    | ok rank =>
      cases entry.at? 2 with
      | error fault => rfl
      | ok decompositions =>
        simp only [Except.map, ok_bind, parts?_renumbered]
        cases decompositions.parts? with
        | error fault => rfl
        | ok parts =>
          have each : RawDecomposition.ofList ∘ Data.renumbered ρ =
              fun d => (RawDecomposition.ofList d).map (RawDecomposition.renumbered ρ) :=
            funext RawDecomposition.ofList_renumbered
          simp only [ok_bind, renumberedItems_eq_map, List.mapM_map, each, mapM_map]
          cases parts.mapM RawDecomposition.ofList <;> rfl

theorem reported_mapError (x : Except ScriptProblem α) :
    reported (x.mapError (ScriptProblem.renumbered ρ)) = (reported x).mapError (Failure.renumbered ρ) := by
  cases x with
  | ok a => rfl
  | error p => exact (Failure.mapError_script p).symm

theorem Rule.ofList_renumbered (entry : Data) :
    ofList (entry.renumbered ρ) = (ofList entry).mapError (Failure.renumbered ρ) := by
  rw [ofList, ofList, RawRule.ofList_renumbered]
  cases RawRule.ofList entry with
  | ok raw =>
    dsimp only [Except.map]
    rw [RawRule.check_renumbered, reported_mapError]
  | error fault => exact (Failure.mapError_script (.malformedEntry fault entry)).symm

theorem partsOf_renumbered (value : Option Data) :
    partsOf (value.map (Data.renumbered ρ)) =
      ((partsOf value).map (renumberedItems ρ)).mapError (Failure.renumbered ρ) := by
  cases value with
  | none => rfl
  | some value =>
    simp only [Option.map_some, partsOf, isTruthy_renumbered, parts?_renumbered]
    split
    · cases value.parts? <;> rfl
    · rfl

theorem RawDecomposition.ofMap_renumbered (keyword d : Data) :
    ofMap (keyword.renumbered ρ) (d.renumbered ρ) =
      ((ofMap keyword d).map (renumbered ρ)).mapError (Failure.renumbered ρ) := by
  rw [ofMap, ofMap, entries?_renumbered]
  cases d.entries? with
  | none => exact (Failure.mapError_script (.notDecomposition keyword d)).symm
  | some entries =>
    simp only [Option.map_some, field?_renumbered]
    cases field? "pattern" entries with
    | none => exact (Failure.mapError_script (.notDecomposition keyword d)).symm
    | some pattern =>
      simp only [Option.map_some, partsOf_renumbered]
      cases partsOf (field? "reassemblies" entries) <;> rfl

theorem Rule.ofMap_renumbered (entry : Data) :
    ofMap (entry.renumbered ρ) = (ofMap entry).mapError (Failure.renumbered ρ) := by
  rw [ofMap, ofMap, entries?_renumbered]
  cases entry.entries? with
  | none => exact (Failure.mapError_script (.notRule entry)).symm
  | some entries =>
    simp only [Option.map_some, field?_renumbered]
    cases field? "keyword" entries with
    | none => exact (Failure.mapError_script (.notRule entry)).symm
    | some keyword =>
      have rank : ((field? "rank" entries).map (Data.renumbered ρ)).getD (.int 0) =
          ((field? "rank" entries).getD (.int 0)).renumbered ρ := Option.getD_map (Data.renumbered ρ) (.int 0) _
      simp only [Option.map_some, partsOf_renumbered, rank]
      cases partsOf (field? "decompositions" entries) with
      | error failure => rfl
      | ok parts =>
        have same : ((Except.ok parts).map (renumberedItems ρ)).mapError (Failure.renumbered ρ) =
            .ok (parts.map (Data.renumbered ρ)) := congrArg Except.ok (renumberedItems_eq_map parts)
        rw [same, ok_bind, ok_bind, mapM_mapError (RawDecomposition.ofMap_renumbered keyword), mapM_map, mapError_bind]
        cases parts.mapM (RawDecomposition.ofMap keyword) with
        | error failure => rfl
        | ok decompositions =>
          have checked : RawRule.check (.renumbered ρ _) = _ :=
            RawRule.check_renumbered ⟨keyword, (field? "rank" entries).getD (.int 0), decompositions⟩
          exact (congrArg reported checked).trans (reported_mapError _)

theorem Rule.ofData_renumbered (entry : Data) :
    ofData (entry.renumbered ρ) = (ofData entry).mapError (Failure.renumbered ρ) := by
  rw [ofData, ofData, entries?_renumbered, Option.isSome_map]
  split
  · exact ofMap_renumbered entry
  · exact ofList_renumbered entry

/-! Sections of scripts. -/

/-- What is read of a section under other marks is read as without them, if its parts are. -/
theorem sectionOf_bind_renumbered {apart? : Data → Option (List α)} {problem : ScriptProblem}
    {change : List α → List α} {f f' : List α → Except Failure β}
    (apart : ∀ value, apart? (value.renumbered ρ) = (apart? value).map change) (nothing : change [] = [])
    (plain : problem.renumbered ρ = problem) (next : ∀ l, f' (change l) = (f l).mapError (Failure.renumbered ρ))
    (value : Option Data) : sectionOf apart? problem (value.map (Data.renumbered ρ)) >>= f' =
      (sectionOf apart? problem value >>= f).mapError (Failure.renumbered ρ) := by
  have empty : f' [] = (f []).mapError (Failure.renumbered ρ) := by
    rw [← next, nothing]
  rw [sectionOf_bind, sectionOf_bind]
  cases value with
  | none => exact empty
  | some value =>
    simp only [Option.map_some, isTruthy_renumbered, apart]
    split
    · exact empty
    · cases apart? value with
      | none => rw [Option.map_none, Failure.mapError_script, plain]
      | some parts => exact next parts

theorem mapM_renumberedItems {f : Data → Except Failure β}
    (each : ∀ x : Data, f (x.renumbered ρ) = (f x).mapError (Failure.renumbered ρ)) (items : List Data) :
    (renumberedItems ρ items).mapM f = (items.mapM f).mapError (Failure.renumbered ρ) := by
  rw [renumberedItems_eq_map]
  exact mapM_mapError each items

theorem mapM_renumberedEntries {f : Data × Data → Except Failure β}
    (each : ∀ p, f (p.map (Data.renumbered ρ) (Data.renumbered ρ)) = (f p).mapError (Failure.renumbered ρ))
    (entries : List (Data × Data)) :
    (renumberedEntries ρ entries).mapM f = (entries.mapM f).mapError (Failure.renumbered ρ) := by
  rw [renumberedEntries_eq_map]
  exact mapM_mapError each entries

theorem textOf_renumbered (value : Data) :
    textOf (value.renumbered ρ) = (textOf value).mapError (Failure.renumbered ρ) := by
  rw [textOf, textOf, plain?_renumbered]
  cases value.plain? <;> rfl

theorem textsOf_renumbered (part : String) (value : Option Data) :
    textsOf part (value.map (Data.renumbered ρ)) = (textsOf part value).mapError (Failure.renumbered ρ) := by
  rw [textsOf_eq, textsOf_eq]
  exact sectionOf_bind_renumbered items?_renumbered rfl rfl (mapM_renumberedItems textOf_renumbered) value

theorem substitutionOf_renumbered (p : Data × Data) :
    substitutionOf (p.map (Data.renumbered ρ) (Data.renumbered ρ)) =
      (substitutionOf p).mapError (Failure.renumbered ρ) := by
  simp only [substitutionOf, Prod.map, textOf_renumbered, mapError_bind]
  rfl

theorem pairs?_renumbered (value : Data) :
    (value.renumbered ρ).pairs? = value.pairs?.map (renumberedEntries ρ) := by
  have two (items : List Data) :
      (renumberedItems ρ items).mapM two? = (items.mapM two?).map (renumberedEntries ρ) := by
    induction items with
    | nil => rfl
    | cons x rest ih =>
      rw [renumberedItems, List.mapM_cons, List.mapM_cons, ih, two?_renumbered]
      cases x.two? with
      | none => rfl
      | some pair => cases rest.mapM two? <;> rfl
  rw [pairs?, pairs?, entries?_renumbered, items?_renumbered]
  cases value.entries? with
  | some entries => rfl
  | none =>
    cases value.items? with
    | none => rfl
    | some items => exact two items

theorem substitutionsOf_renumbered (part : String) (value : Option Data) :
    substitutionsOf part (value.map (Data.renumbered ρ)) =
      (substitutionsOf part value).mapError (Failure.renumbered ρ) := by
  rw [substitutionsOf_eq, substitutionsOf_eq]
  exact sectionOf_bind_renumbered pairs?_renumbered rfl rfl (mapM_renumberedEntries substitutionOf_renumbered) value

theorem retouchOf_renumbered (item : Data) :
    retouchOf (item.renumbered ρ) = (retouchOf item).mapError (Failure.renumbered ρ) := by
  have field (name : String) : (item.renumbered ρ).entries?.bind (field? name) =
      (item.entries?.bind (field? name)).map (Data.renumbered ρ) := by
    rw [entries?_renumbered]
    cases item.entries? with
    | none => rfl
    | some entries => exact field?_renumbered name entries
  have replacement : ((item.entries?.bind (field? "replacement")).map (Data.renumbered ρ)).getD (.text "") =
      ((item.entries?.bind (field? "replacement")).getD (.text "")).renumbered ρ :=
    Option.getD_map (Data.renumbered ρ) (.text "") _
  simp only [retouchOf, field, replacement, two?_renumbered]
  cases item.entries?.bind (field? "pattern") with
  | some pattern =>
    simp only [Option.map_some, textOf_renumbered, mapError_bind]
    rfl
  | none =>
    cases item.two? with
    | none => exact (Failure.mapError_script (.badTransform item)).symm
    | some pair =>
      simp only [Option.map_none, Option.map_some, Prod.map, textOf_renumbered, mapError_bind]
      rfl

theorem retouchesOf_renumbered (value : Option Data) :
    retouchesOf (value.map (Data.renumbered ρ)) = (retouchesOf value).mapError (Failure.renumbered ρ) := by
  rw [retouchesOf_eq, retouchesOf_eq]
  exact sectionOf_bind_renumbered items?_renumbered rfl rfl (mapM_renumberedItems retouchOf_renumbered) value

theorem synonymOf_renumbered (entry : Data × Data) :
    synonymOf (entry.map (Data.renumbered ρ) (Data.renumbered ρ)) =
      (synonymOf entry).mapError (Failure.renumbered ρ) := by
  obtain ⟨word, value⟩ := entry
  have parts : partsOf (some (value.renumbered ρ)) =
      ((partsOf (some value)).map (renumberedItems ρ)).mapError (Failure.renumbered ρ) :=
    partsOf_renumbered (some value)
  simp only [synonymOf, Prod.map, textOf_renumbered, mapError_bind, parts]
  refine bind_congr fun word => ?_
  cases partsOf (some value) with
  | error failure => rfl
  | ok items =>
    change (renumberedItems ρ items).mapM textOf >>= _ = _
    rw [mapM_renumberedItems textOf_renumbered]
    rfl

theorem ofEntries_renumbered (entries : List (Data × Data)) :
    ofEntries (renumberedEntries ρ entries) = (ofEntries entries).mapError (Failure.renumbered ρ) := by
  rw [ofEntries, ofEntries, field?_renumbered, field?_renumbered]
  refine sectionOf_bind_renumbered items?_renumbered rfl rfl (fun keywords => ?_) _
  refine sectionOf_bind_renumbered entries?_renumbered rfl rfl (fun synonyms => ?_) _
  simp only [partsOfEntries, field?_renumbered, mapError_bind, substitutionsOf_renumbered, retouchesOf_renumbered,
    textsOf_renumbered, mapM_renumberedItems Rule.ofData_renumbered, mapM_renumberedEntries synonymOf_renumbered]
  rfl

/-- A script is read from a value under other marks as it is without them. It holds no marks, and a failure
to read it differs in them only. -/
theorem ofData_renumbered (value : Data) :
    ofData (value.renumbered ρ) = (ofData value).mapError (Failure.renumbered ρ) := by
  rw [ofData_eq, ofData_eq, entries?_renumbered]
  cases value.entries? with
  | none => exact (Failure.mapError_script .notMapping).symm
  | some entries => exact ofEntries_renumbered entries

end Script
end Colloquy
