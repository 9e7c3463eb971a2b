import Colloquy.Failure
import Colloquy.Proofs.Outcome

/-! Work that ends with a result, or else with a problem that is reported as one of a family. -/

namespace Colloquy

variable {α β : Type} {family : Family} {P : Prop}

/-- Whether work ends with a result, or with a problem that is reported as one of a family. -/
def Told (family : Family) (x : Except Failure α) : Prop :=
  (∃ a, x = .ok a) ∨ ∃ p, x = .error (.reported p) ∧ family ∈ p.report.family.ancestry

/-- Whether a problem shows a value that has no text. -/
def Problem.Hidden (p : Problem) : Prop := ∃ value ∈ p.shownValues, value.isShowable = false

theorem told_ok (a : α) : Told family (.ok a) := .inl ⟨a, rfl⟩

theorem not_told_breakdown (b : Breakdown) :
    ¬ Told family (.error (.breakdown b) : Except Failure α) := by
  rintro (⟨_, done⟩ | ⟨_, failed, _⟩)
  · contradiction
  · cases failed

theorem told_iff_of_or {x : Except Failure α}
    (ends : Told family x ∨ ∃ b, x = .error (.breakdown b)) :
    Told family x ↔ ¬ ∃ b, x = .error (.breakdown b) := by
  constructor
  · rintro told ⟨b, rfl⟩
    exact not_told_breakdown b told
  · exact ends.resolve_right

/-- A problem is told just if all values that its report shows have a text. -/
theorem told_because {p : Problem} (inside : family ∈ p.report.family.ancestry) :
    Told family (.error (.because p) : Except Failure α) ↔ ¬ p.Hidden := by
  have all : p.shownValues.all Data.isShowable = true ↔ ¬ p.Hidden := by simp [Problem.Hidden]
  rw [← all, Failure.because]
  split
  · next shown => exact iff_of_true (.inr ⟨p, rfl, inside⟩) shown
  · next hidden => exact iff_of_false (not_told_breakdown _) hidden

theorem told_bind {x : Except Failure α} {f : α → Except Failure β} {Q : α → Prop}
    (first : Told family x ↔ ¬ P) (next : ∀ a, x = .ok a → (Told family (f a) ↔ ¬ Q a)) :
    Told family (x >>= f) ↔ ¬ (P ∨ ∃ a, x = .ok a ∧ Q a) := by
  cases x with
  | ok a =>
    have fine : ¬ P := first.mp (told_ok a)
    rw [ok_bind, next a rfl]
    simp [fine]
  | error failure =>
    have same : Told family (Except.error failure >>= f : Except Failure β) ↔
        Told family (Except.error failure : Except Failure α) := by
      simp [Told, bind, Except.bind]
    rw [same, first]
    simp

theorem told_bind_left {x : Except Failure α} {f : α → Except Failure β}
    (first : Told family x ↔ ¬ P) (next : ∀ a, Told family (f a)) : Told family (x >>= f) ↔ ¬ P := by
  have later : ∀ a, x = .ok a → (Told family (f a) ↔ ¬ False) :=
    fun a _ => iff_of_true (next a) not_false
  simpa using told_bind first later

theorem told_bind_done {x : Except Failure α} {f : α → Except Failure β}
    (first : Told family x ↔ ¬ P) (next : ∀ a, ∃ b, f a = .ok b) : Told family (x >>= f) ↔ ¬ P :=
  told_bind_left first fun a => .inl (next a)

theorem told_map (x : Except Failure α) (f : α → β) : Told family (x.map f) ↔ Told family x := by
  cases x with
  | ok a => exact iff_of_true (told_ok (f a)) (told_ok a)
  | error failure => simp [Told, Except.map]

/-- Work on some things escapes just where the first that is not refused before does. -/
theorem told_mapM {f : α → Except Failure β} {escapes : α → Prop}
    (each : ∀ a, Told family (f a) ↔ ¬ escapes a) (l : List α) :
    Told family (l.mapM f) ↔ ¬ FirstOf f escapes l := by
  induction l with
  | nil => exact iff_of_true (told_ok []) firstOf_nil
  | cons a rest ih =>
    rw [List.mapM_cons, firstOf_cons]
    exact told_bind (each a) fun b _ => told_bind_done ih fun bs => ⟨b :: bs, rfl⟩

theorem told_foldlM_always {f : β → α → Except Failure β} (each : ∀ b a, Told family (f b a))
    (l : List α) (b : β) : Told family (l.foldlM f b) := by
  induction l generalizing b with
  | nil => exact told_ok b
  | cons a rest ih =>
    rw [List.foldlM_cons]
    exact (told_bind_left (iff_of_true (each b a) not_false) ih).mpr not_false

/-- Work whose steps are done or not whatever came before them can be looked at from one start. -/
theorem told_foldlM {f : β → α → Except Failure β} {escapes : α → Prop}
    (each : ∀ b a, Told family (f b a) ↔ ¬ escapes a)
    (alike : ∀ b b' a, (∃ c, f b a = .ok c) → ∃ c, f b' a = .ok c) (start : β) (l : List α) (b : β) :
    Told family (l.foldlM f b) ↔ ¬ FirstOf (f start) escapes l := by
  induction l generalizing b with
  | nil => exact iff_of_true (told_ok b) firstOf_nil
  | cons a rest ih =>
    rw [List.foldlM_cons, firstOf_cons, told_bind (each b a) fun c _ => ih c]
    refine not_congr (or_congr_right ?_)
    constructor
    · rintro ⟨c, done, later⟩
      obtain ⟨c', done'⟩ := alike b start a ⟨c, done⟩
      exact ⟨c', done', later⟩
    · rintro ⟨c, done, later⟩
      obtain ⟨c', done'⟩ := alike start b a ⟨c, done⟩
      exact ⟨c', done', later⟩

end Colloquy
