import Colloquy.Text.Cursor

/-! Texts scanned for what is to be replaced. Where nothing empty is found, a scan takes one step for
each character at most, so that it may be read without its steps. -/

namespace Colloquy.Text.Cursor

variable {find : Bool → Cursor → Option (List Char × Cursor)} {place stop : Cursor}
  {replacement before a rest : List Char} {c : Char} {steps steps' : Nat}

/-- Whether all that is found goes forward, and is found whatever was found before. -/
structure Advances (find : Bool → Cursor → Option (List Char × Cursor)) : Prop where
  alike : ∀ nonempty place, find nonempty place = find false place
  forward : ∀ {place replacement stop}, find false place = some (replacement, stop) →
    stop.after.length < place.after.length

/-- The text from a place to the end, with everything replaced that is found. -/
def scan (find : Bool → Cursor → Option (List Char × Cursor)) (place : Cursor) : List Char :=
  replaceFrom find (place.after.length + 1) false place

/-- The number of steps does not matter if there are more than characters left. -/
theorem replaceFrom_steps (advances : Advances find) (nonempty nonempty' : Bool)
    (enough : place.after.length < steps) (enough' : place.after.length < steps') :
    replaceFrom find steps nonempty place = replaceFrom find steps' nonempty' place := by
  induction steps generalizing place steps' nonempty nonempty' with
  | zero => contradiction
  | succ steps ih =>
    cases steps' with
    | zero => contradiction
    | succ steps' =>
      rw [replaceFrom.eq_def, replaceFrom.eq_def find (steps' + 1)]
      dsimp only
      rw [advances.alike nonempty, advances.alike nonempty']
      cases found : find false place with
      | some found' =>
        obtain ⟨replacement, stop⟩ := found'
        have fewer := advances.forward found
        refine congrArg (replacement ++ ·) (ih _ _ ?_ ?_)
        · omega
        · omega
      | none =>
        obtain ⟨before, after⟩ := place
        cases after with
        | nil => rfl
        | cons c rest =>
          simp only [List.length_cons] at enough enough'
          refine congrArg (c :: ·) (ih _ _ ?_ ?_)
          · simp only
            omega
          · simp only
            omega

/-- To replace all that is found is to scan the text once. -/
theorem replaceAll_eq_scan (advances : Advances find) (text : List Char) :
    replaceAll find text = scan find (start text) := by
  refine replaceFrom_steps advances false false ?_ (Nat.lt_succ_self _)
  simp only [start]
  omega

theorem scan_found (advances : Advances find) (found : find false place = some (replacement, stop)) :
    scan find place = replacement ++ scan find stop := by
  have fewer := advances.forward found
  rw [scan, replaceFrom.eq_def]
  dsimp only
  rw [found]
  exact congrArg (replacement ++ ·) (replaceFrom_steps advances _ false fewer (Nat.lt_succ_self _))

theorem scan_nil (none_ : find false ⟨before, []⟩ = none) : scan find ⟨before, []⟩ = [] := by
  rw [scan, replaceFrom, none_]

theorem scan_cons (none_ : find false ⟨before, c :: rest⟩ = none) :
    scan find ⟨before, c :: rest⟩ = c :: scan find ⟨c :: before, rest⟩ := by
  rw [scan, replaceFrom, none_]
  rfl

/-- Characters at which nothing is found stay. -/
theorem scan_append
    (none_ : ∀ b c d, a = b ++ c :: d → find false ⟨b.reverse ++ before, c :: (d ++ rest)⟩ = none) :
    scan find ⟨before, a ++ rest⟩ = a ++ scan find ⟨a.reverse ++ before, rest⟩ := by
  induction a generalizing before with
  | nil => rfl
  | cons c a ih =>
    rw [List.cons_append, scan_cons (by simpa using none_ [] c a rfl), ih]
    · simp
    · rintro b d e rfl
      simpa using none_ (c :: b) d e rfl

end Colloquy.Text.Cursor
