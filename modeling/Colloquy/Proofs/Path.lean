import Colloquy.Environment

/-! Paths and their texts: a path that is taken apart from a text reads back from its own text. -/

namespace Colloquy

namespace Path

variable {p q : Path} {text name : String}

/-- Whether a name can stand in a path that is taken apart. -/
structure IsName (name : String) : Prop where
  filled : name ≠ ""
  notHere : name ≠ "."
  undivided : '/' ∉ name.toList

/-- Whether a path is one that a text can stand for. -/
structure IsProper (p : Path) : Prop where
  slashes : p.slashes ≤ 2
  names : ∀ name ∈ p.names, IsName name

theorem not_mem_of_mem_splitOn {c : Char} {cs piece : List Char} (member : piece ∈ cs.splitOn c) :
    c ∉ piece := by
  rw [List.splitOn] at member
  induction cs generalizing piece with
  | nil =>
    rw [List.mem_singleton.mp member]
    exact List.not_mem_nil
  | cons d rest ih =>
    rw [List.splitOnP_cons_eq_if_modifyHead] at member
    split at member
    · rcases List.mem_cons.mp member with rfl | later
      · exact List.not_mem_nil
      · exact ih later
    · next other =>
      cases pieces : rest.splitOnP (· == c) with
      | nil => exact absurd pieces (List.splitOnP_ne_nil _ _)
      | cons first others =>
        rw [pieces, List.modifyHead_cons] at member
        rw [pieces] at ih
        rcases List.mem_cons.mp member with rfl | later
        · rw [List.mem_cons, not_or]
          exact ⟨fun same => other (by simp [same]), ih List.mem_cons_self⟩
        · exact ih (List.mem_cons_of_mem _ later)

theorem isName_of_mem_namesIn (member : name ∈ namesIn text) : IsName name := by
  obtain ⟨inside, kept⟩ := List.mem_filter.mp member
  obtain ⟨piece, found, rfl⟩ := List.mem_map.mp inside
  have kept : String.ofList piece ≠ "" ∧ String.ofList piece ≠ "." := by simpa using kept
  exact ⟨kept.1, kept.2, by simpa using not_mem_of_mem_splitOn found⟩

/-- The path that a text stands for is a proper one. -/
theorem parse_proper (text : String) : (parse text).IsProper := by
  refine ⟨?_, fun name member => isName_of_mem_namesIn member⟩
  rw [parse]
  dsimp only
  split <;> omega

theorem IsProper.child (proper : p.IsProper) (fits : IsName name) : (p.child name).IsProper := by
  refine ⟨proper.slashes, fun other member => ?_⟩
  rcases List.mem_append.mp member with inside | last
  · exact proper.names other inside
  · rwa [List.mem_singleton.mp last]

/-! The text of a path. -/

theorem replicate_append_intercalate (c : Char) (count : Nat) {pieces : List (List Char)} (some : pieces ≠ []) :
    List.replicate count c ++ [c].intercalate pieces = [c].intercalate (List.replicate count [] ++ pieces) := by
  induction count with
  | zero => rfl
  | succ n ih =>
    obtain ⟨first, others, later⟩ := List.exists_cons_of_ne_nil
      (List.append_ne_nil_of_right_ne_nil (List.replicate n []) some)
    rw [List.replicate_succ, List.replicate_succ, List.cons_append, List.cons_append, ih, later,
      List.intercalate_cons_cons]
    rfl

theorem text_toList (some : p.names ≠ []) :
    p.text.toList = List.replicate p.slashes '/' ++ ['/'].intercalate (p.names.map String.toList) := by
  rw [Path.text, if_neg fun none => some none.2, String.toList_append, String.toList_ofList,
    String.toList_intercalate]
  rfl

/-- The names of a path are in its text, with nothing before each of the slashes at its start. -/
theorem splitOn_text (proper : p.IsProper) (some : p.names ≠ []) :
    p.text.toList.splitOn '/' = List.replicate p.slashes [] ++ p.names.map String.toList := by
  have filled : p.names.map String.toList ≠ [] := by simpa using some
  rw [text_toList some, replicate_append_intercalate _ _ filled]
  refine List.splitOn_intercalate '/' ?_ (List.append_ne_nil_of_right_ne_nil _ filled)
  intro piece member
  rcases List.mem_append.mp member with slash | named
  · rw [List.eq_of_mem_replicate slash]
    exact List.not_mem_nil
  · obtain ⟨name, inside, rfl⟩ := List.mem_map.mp named
    exact (proper.names name inside).undivided

/-- The text of a proper path is taken apart into its names again. -/
theorem namesIn_text (proper : p.IsProper) (some : p.names ≠ []) : namesIn p.text = p.names := by
  have back : (p.names.map String.toList).map String.ofList = p.names := by
    rw [List.map_map]
    exact List.map_id'' (fun name => String.ofList_toList) p.names
  rw [namesIn, splitOn_text proper some, List.map_append, back, List.filter_append, List.map_replicate,
    List.filter_replicate_of_neg (by simp), List.nil_append, List.filter_eq_self]
  intro name member
  obtain ⟨filled, notHere, _⟩ := proper.names name member
  simp [filled, notHere]

theorem takeWhile_text (proper : p.IsProper) (some : p.names ≠ []) :
    p.text.toList.takeWhile (· == '/') = List.replicate p.slashes '/' := by
  obtain ⟨name, others, named⟩ := List.exists_cons_of_ne_nil some
  obtain ⟨filled, _, undivided⟩ := proper.names name (by simp [named])
  have spelt : name.toList ≠ [] := by simpa using filled
  obtain ⟨c, cs, spelt⟩ := List.exists_cons_of_ne_nil spelt
  have apart : c ≠ '/' := fun same => undivided (by simp [spelt, same])
  have starts : ∃ rest, ['/'].intercalate (p.names.map String.toList) = c :: rest := by
    cases others with
    | nil => exact ⟨cs, by simp [named, spelt]⟩
    | cons next others =>
      refine ⟨cs ++ ['/'] ++ ['/'].intercalate ((next :: others).map String.toList), ?_⟩
      rw [named, List.map_cons, List.map_cons, List.intercalate_cons_cons, spelt]
      rfl
  obtain ⟨rest, starts⟩ := starts
  rw [text_toList some, starts, List.takeWhile_append_of_pos (by simp),
    List.takeWhile_cons_of_neg (by simpa using apart), List.append_nil]

/-- A path reads back from its text. -/
theorem parse_text (proper : p.IsProper) : parse p.text = p := by
  obtain ⟨slashes, names⟩ := p
  have few : slashes ≤ 2 := proper.slashes
  cases names with
  | nil =>
    rcases slashes with _ | _ | _ | more
    · decide
    · decide
    · decide
    · omega
  | cons name others =>
    have some : (⟨slashes, name :: others⟩ : Path).names ≠ [] := nofun
    rw [parse, namesIn_text proper some, takeWhile_text proper some, List.length_replicate]
    exact congrArg (Path.mk · _) (if_pos few)

theorem text_ne_empty (proper : p.IsProper) : p.text ≠ "" := by
  intro empty
  have back := parse_text proper
  rw [empty] at back
  subst back
  contradiction

end Path

namespace Environment

variable {env : Environment} {folder : Path}

theorem home_proper (found : env.home = .ok folder) : folder.IsProper := by
  rw [home] at found
  split at found
  · rw [homeAt] at found
    split at found
    · contradiction
    · rw [← Except.ok.inj found]
      exact Path.parse_proper _
  · contradiction

/-- The directory for settings is a proper path, if there is one. -/
theorem settingsFolder_proper (usual : env.settingsFolder = .ok folder) : folder.IsProper := by
  rw [settingsFolder] at usual
  split at usual
  · rw [← Except.ok.inj usual]
    exact Path.parse_proper _
  · rw [← Except.ok.inj usual]
    exact (Path.parse_proper _).child ⟨by decide, by decide, by decide⟩
  · cases found : env.home with
    | error b =>
      rw [found] at usual
      contradiction
    | ok home =>
      rw [found] at usual
      rw [← Except.ok.inj usual]
      exact (home_proper found).child ⟨by decide, by decide, by decide⟩

end Environment
end Colloquy
