import Colloquy.Proofs.Text.Runs
import Colloquy.Text.Spacing

/-! Collapsing leaves one blank of every gap, so that gaps are narrow afterwards, and nothing but the
gaps changes: what stands between blanks stands there as before, next to the same characters. -/

namespace Colloquy.Text

variable {text a b u : List Char} {c d : Char}

theorem collapse_cons_narrow (narrow : isBlank c = true → ∀ d ∈ text.head?, isBlank d = false) :
    collapse (c :: text) = c :: collapse text := by
  cases text with
  | nil => simp [collapse, runs]
  | cons d rest =>
    obtain ⟨more, others, begins⟩ := exists_runs_cons isBlank d rest
    rw [collapse, collapse, runs, begins]
    cases first : isBlank c with
    | true => simp [narrow first d rfl]
    | false => cases second : isBlank d <;> simp

theorem collapse_cons_wide (first : isBlank c = true) (second : isBlank d = true) :
    collapse (c :: d :: text) = ' ' :: (collapse (d :: text)).tail := by
  obtain ⟨more, others, begins⟩ := exists_runs_cons isBlank d text
  rw [collapse, collapse, runs, begins]
  simp only [first, second, if_true, List.flatMap_cons, Bool.true_and, List.length_cons]
  by_cases alone : more = []
  · simp [alone]
  · have two : 2 ≤ more.length + 1 := by
      have := List.length_pos_iff.mpr alone
      omega
    simp [two]

/-- A character, every blank being the same. -/
def evenBlank (c : Char) : Char := if isBlank c then ' ' else c

theorem isBlank_evenBlank (c : Char) : isBlank (evenBlank c) = isBlank c := by
  rw [evenBlank]
  split
  · next blank => rw [blank]; rfl
  · rfl

theorem isBlank_of_even (same : evenBlank c = evenBlank d) : isBlank c = isBlank d := by
  rw [← isBlank_evenBlank, same, isBlank_evenBlank]

theorem head?_collapse (text : List Char) :
    (collapse text).head?.map evenBlank = text.head?.map evenBlank := by
  cases text with
  | nil => rfl
  | cons c text =>
    by_cases narrow : isBlank c = true → ∀ d ∈ text.head?, isBlank d = false
    · rw [collapse_cons_narrow narrow]
      rfl
    · simp only [not_forall, Bool.not_eq_false] at narrow
      obtain ⟨first, d, found, second⟩ := narrow
      cases text with
      | nil => contradiction
      | cons e rest =>
        cases found
        rw [collapse_cons_wide first second]
        simp [evenBlank, first]

/-- A character stays, or it is a blank before a gap, of which one blank is left either way. -/
theorem collapse_cons_or (c : Char) (text : List Char) :
    (isBlank c = true → ∀ d ∈ text.head?, isBlank d = false) ∧ collapse (c :: text) = c :: collapse text ∨
      isBlank c = true ∧ ∃ h more, isBlank h = true ∧ collapse text = h :: more ∧
        collapse (c :: text) = ' ' :: more := by
  by_cases narrow : isBlank c = true → ∀ d ∈ text.head?, isBlank d = false
  · exact .inl ⟨narrow, collapse_cons_narrow narrow⟩
  · right
    simp only [not_forall, Bool.not_eq_false] at narrow
    obtain ⟨first, d, found, second⟩ := narrow
    obtain ⟨rest, rfl⟩ := List.head?_eq_some_iff.mp found
    have head := head?_collapse (d :: rest)
    have wide : collapse (c :: d :: rest) = ' ' :: (collapse (d :: rest)).tail :=
      collapse_cons_wide first second
    cases others : collapse (d :: rest) with
    | nil => simp [others] at head
    | cons h more =>
      rw [others] at head wide
      have same : evenBlank h = evenBlank d := by simpa using head
      exact ⟨first, h, more, (isBlank_of_even same).trans second, rfl, wide⟩

/-- Where solid characters stand first after collapsing they stood first before, and the next character
is the same or a blank as before. -/
theorem append_of_collapse (solid : ∀ c ∈ u, isBlank c = false) (collapsed : collapse text = u ++ b) :
    ∃ b', text = u ++ b' ∧ b'.head?.map evenBlank = b.head?.map evenBlank := by
  induction u generalizing text with
  | nil =>
    refine ⟨text, rfl, ?_⟩
    rw [← head?_collapse, collapsed, List.nil_append]
  | cons c u ih =>
    obtain ⟨first, solid⟩ := List.forall_mem_cons.mp solid
    have begins := head?_collapse text
    rw [collapsed] at begins
    cases text with
    | nil => simp at begins
    | cons d rest =>
      have same : evenBlank d = evenBlank c := by simpa using begins.symm
      have firstToo : isBlank d = false := (isBlank_of_even same).trans first
      have stays : collapse (d :: rest) = d :: collapse rest :=
        collapse_cons_narrow (by simp [firstToo])
      rw [stays, List.cons_append] at collapsed
      obtain ⟨rfl, later⟩ := List.cons.inj collapsed
      obtain ⟨b', rfl, alike⟩ := ih (List.forall_mem_cons.mp solid).2 later
      exact ⟨b', rfl, alike⟩

theorem last_cons (c : Char) (a : List Char) : (c :: a).getLast?.map evenBlank =
    some ((a.getLast?.map evenBlank).getD (evenBlank c)) := by
  rw [List.getLast?_cons, Option.map_some, Option.getD_map]

/-- Where solid characters stand after collapsing they stood before, and the characters next to them are
the same or blanks as before. -/
theorem infix_of_collapse (solid : ∀ c ∈ u, isBlank c = false)
    (collapsed : collapse text = a ++ u ++ b) :
    ∃ a' b', text = a' ++ u ++ b' ∧ a'.getLast?.map evenBlank = a.getLast?.map evenBlank ∧
      b'.head?.map evenBlank = b.head?.map evenBlank := by
  induction text generalizing a with
  | nil =>
    have nothing : a ++ u ++ b = [] := collapsed.symm
    simp only [List.append_eq_nil_iff] at nothing
    obtain ⟨⟨rfl, rfl⟩, rfl⟩ := nothing
    exact ⟨[], [], rfl, rfl, rfl⟩
  | cons c rest ih =>
    cases a with
    | nil =>
      obtain ⟨b', same, alike⟩ := append_of_collapse solid collapsed
      exact ⟨[], b', same, rfl, alike⟩
    | cons x a =>
      rw [List.cons_append, List.cons_append] at collapsed
      rcases collapse_cons_or c rest with ⟨_, stays⟩ | ⟨_, h, more, blank, others, joins⟩
      · rw [stays] at collapsed
        obtain ⟨rfl, later⟩ := List.cons.inj collapsed
        obtain ⟨a', b', same, before, after⟩ := ih later
        exact ⟨c :: a', b', by rw [same]; rfl, by rw [last_cons, before, last_cons], after⟩
      · rw [joins] at collapsed
        obtain ⟨rfl, later⟩ := List.cons.inj collapsed
        have begins : collapse rest = h :: a ++ u ++ b := by
          rw [others, later]
          rfl
        obtain ⟨a', b', same, before, after⟩ := ih begins
        refine ⟨c :: a', b', by rw [same]; rfl, ?_, after⟩
        rw [last_cons, before, last_cons, last_cons, evenBlank, if_pos blank]
        rfl

/-- Whether two neighbours do not make a wide gap. -/
def Narrow (c d : Char) : Prop := isBlank c = true → isBlank d = false

theorem collapse_of_narrow (narrow : text.IsChain Narrow) : collapse text = text := by
  induction text with
  | nil => rfl
  | cons c rest ih =>
    obtain ⟨next, narrow⟩ := List.isChain_cons.mp narrow
    rw [collapse_cons_narrow fun blank d found => next d found blank, ih narrow]

/-- What holds of all neighbours that do not make a wide gap holds of all neighbours after collapsing, if
one blank is as good as another. -/
theorem isChain_collapse {R : Char → Char → Prop}
    (even : ∀ c d c' d', evenBlank c' = evenBlank c → evenBlank d' = evenBlank d → R c d → R c' d')
    (held : text.IsChain fun c d => Narrow c d → R c d) : (collapse text).IsChain R := by
  induction text with
  | nil => exact .nil
  | cons c rest ih =>
    obtain ⟨first, held⟩ := List.isChain_cons.mp held
    have later := ih held
    rcases collapse_cons_or c rest with ⟨narrow, stays⟩ | ⟨_, h, more, blank, others, joins⟩
    · rw [stays, List.isChain_cons]
      refine ⟨fun d found => ?_, later⟩
      have alike := head?_collapse rest
      rw [Option.mem_def.mp found] at alike
      cases rest with
      | nil => simp at alike
      | cons e rest =>
        exact even c e c d rfl (by simpa using alike) (first e rfl fun blank => narrow blank e rfl)
    · rw [others] at later
      rw [joins]
      obtain ⟨next, later⟩ := List.isChain_cons.mp later
      have space : evenBlank ' ' = evenBlank h := by
        rw [evenBlank, evenBlank, if_pos blank]
        rfl
      exact List.isChain_cons.mpr ⟨fun x found => even h x ' ' x space rfl (next x found), later⟩

/-- A text with its wide gaps collapsed has narrow gaps. -/
theorem narrow_collapse (text : List Char) : (collapse text).IsChain Narrow := by
  refine isChain_collapse (fun c d c' d' left right narrow => ?_) ?_
  · intro blank
    exact (isBlank_of_even right).trans (narrow ((isBlank_of_even left).symm.trans blank))
  · exact (List.pairwise_of_forall fun _ _ => id).isChain

theorem mem_collapse (member : c ∈ collapse text) : c = ' ' ∨ c ∈ text := by
  rw [collapse] at member
  obtain ⟨r, inside, own⟩ := List.mem_flatMap.mp member
  split at own
  · exact .inl (List.mem_singleton.mp own)
  · right
    rw [← unruns_runs isBlank text]
    exact List.mem_flatMap.mpr ⟨r, inside, own⟩

end Colloquy.Text
