import Mathlib.Data.List.Perm.Basic

/-! Work that may fail: when one step after another, or one step for each thing of a list, is done. -/

namespace Colloquy

variable {ε α β : Type}

theorem bind_eq_ok {x : Except ε α} {f : α → Except ε β} {b : β} :
    x >>= f = .ok b ↔ ∃ a, x = .ok a ∧ f a = .ok b := by
  cases x with
  | error e => exact ⟨(nomatch ·), fun ⟨_, failed, _⟩ => nomatch failed⟩
  | ok a => exact ⟨fun made => ⟨a, rfl, made⟩, fun ⟨_, first, made⟩ => Except.ok.inj first ▸ made⟩

theorem ok_bind (a : α) (f : α → Except ε β) : (Except.ok a >>= f) = f a := rfl

theorem bind_pure_eq_error (x : Except ε α) (f : α → β) {e : ε} :
    (do return f (← x)) = .error e ↔ x = .error e := by
  cases x <;> simp [bind, Except.bind, pure, Except.pure]

theorem mapError_eq_ok {ε' : Type} {x : Except ε α} {f : ε → ε'} {a : α} :
    x.mapError f = .ok a ↔ x = .ok a := by
  cases x <;> simp [Except.mapError]

theorem mapError_bind {ε' : Type} (x : Except ε α) (f : α → Except ε β) (g : ε → ε') :
    (x >>= f).mapError g = x.mapError g >>= fun a => (f a).mapError g := by
  cases x <;> rfl

theorem exists_ok_iff {x : Except ε α} : (∃ a, x = .ok a) ↔ ¬ ∃ e, x = .error e := by
  cases x <;> simp

theorem exists_of_any {x : Except ε α} {p : α → Bool} (made : x.toOption.any p = true) :
    ∃ a, x = .ok a ∧ p a = true := by
  cases x with
  | error e => contradiction
  | ok a => exact ⟨a, rfl, made⟩

theorem exists_of_foldlM_error {f : β → α → Except ε β} {l : List α} {b : β} {e : ε}
    (failed : l.foldlM f b = .error e) : ∃ a ∈ l, ∃ b, f b a = .error e := by
  induction l generalizing b with
  | nil => contradiction
  | cons a rest ih =>
    rw [List.foldlM_cons] at failed
    cases first : f b a with
    | error _ =>
      rw [first] at failed
      cases failed
      exact ⟨a, List.mem_cons_self, b, first⟩
    | ok b' =>
      rw [first] at failed
      obtain ⟨a, member, b, failed⟩ := ih failed
      exact ⟨a, List.mem_cons_of_mem _ member, b, failed⟩

/-- Work on some things one after the other is done just if each of them is fine. -/
theorem foldlM_ok_iff {f : β → α → Except ε β} {fine : α → Prop}
    (each : ∀ b a, (∃ c, f b a = .ok c) ↔ fine a) (l : List α) (b : β) :
    (∃ c, l.foldlM f b = .ok c) ↔ ∀ a ∈ l, fine a := by
  induction l generalizing b with
  | nil => exact iff_of_true ⟨b, rfl⟩ (by simp)
  | cons a rest ih =>
    rw [List.foldlM_cons, List.forall_mem_cons, ← each b a]
    simp only [bind_eq_ok]
    constructor
    · rintro ⟨c, b', first, later⟩
      exact ⟨⟨b', first⟩, (ih b').mp ⟨c, later⟩⟩
    · rintro ⟨⟨b', first⟩, later⟩
      obtain ⟨c, later⟩ := (ih b').mpr later
      exact ⟨c, b', first, later⟩

/-- Work on some things is done just if it is done on each, with those outcomes. -/
theorem mapM_eq_ok {f : α → Except ε β} {l : List α} {made : List β} :
    l.mapM f = .ok made ↔ List.Forall₂ (fun a b => f a = .ok b) l made := by
  induction l generalizing made with
  | nil =>
    rw [List.mapM_nil, List.forall₂_nil_left_iff]
    exact ⟨fun h => (Except.ok.inj h).symm, fun h => h ▸ rfl⟩
  | cons a rest ih =>
    rw [List.mapM_cons, bind_eq_ok, List.forall₂_cons_left_iff]
    constructor
    · rintro ⟨b, first, tail⟩
      obtain ⟨bs, others, same⟩ := bind_eq_ok.mp tail
      exact ⟨b, bs, first, ih.mp others, (Except.ok.inj same).symm⟩
    · rintro ⟨b, bs, first, others, rfl⟩
      exact ⟨b, first, bind_eq_ok.mpr ⟨bs, ih.mpr others, rfl⟩⟩

/-- Work on some things and then on what has been made of them is work on each in two steps. -/
theorem exists_mapM_mapM {ε' γ : Type} {f : α → Except ε β} {g : β → Except ε' γ} {l : List α}
    {made : List γ} : (∃ halves, l.mapM f = .ok halves ∧ halves.mapM g = .ok made) ↔
      List.Forall₂ (fun a c => ∃ b, f a = .ok b ∧ g b = .ok c) l made := by
  simp only [mapM_eq_ok]
  constructor
  · rintro ⟨halves, first, second⟩
    induction first generalizing made with
    | nil =>
      cases second
      exact .nil
    | @cons a b l halves start _ ih =>
      obtain ⟨c, others, step, rest, rfl⟩ := List.forall₂_cons_left_iff.mp second
      exact .cons ⟨b, start, step⟩ (ih rest)
  · intro both
    induction both with
    | nil => exact ⟨[], .nil, .nil⟩
    | cons one _ ih =>
      obtain ⟨b, start, step⟩ := one
      obtain ⟨halves, first, second⟩ := ih
      exact ⟨b :: halves, .cons start first, .cons step second⟩

theorem exists_mapM_ok {f : α → Except ε β} {holds : β → Prop} {l : List α}
    (each : ∀ a ∈ l, ∃ b, f a = .ok b ∧ holds b) : ∃ made, l.mapM f = .ok made ∧ ∀ b ∈ made, holds b := by
  induction l with
  | nil => exact ⟨[], rfl, nofun⟩
  | cons a rest ih =>
    obtain ⟨⟨b, first, fits⟩, others⟩ := List.forall_mem_cons.mp each
    obtain ⟨bs, later, all⟩ := ih others
    refine ⟨b :: bs, ?_, List.forall_mem_cons.mpr ⟨fits, all⟩⟩
    rw [List.mapM_cons, first, ok_bind, later]
    rfl

theorem mapM_map_ok {f : β → Except ε α} {g : α → β} {l : List α}
    (back : ∀ a ∈ l, f (g a) = .ok a) : (l.map g).mapM f = .ok l := by
  rw [mapM_eq_ok, List.forall₂_map_left_iff]
  exact List.forall₂_same.mpr back

/-- Work on each of some things that are made of others fails like work on those, in other words. -/
theorem mapM_mapError {γ ε' : Type} {make : γ → α} {f : α → Except ε' β} {f' : γ → Except ε β} {g : ε → ε'}
    (each : ∀ c, f (make c) = (f' c).mapError g) (l : List γ) : (l.map make).mapM f = (l.mapM f').mapError g := by
  induction l with
  | nil => rfl
  | cons c rest ih =>
    rw [List.map_cons, List.mapM_cons, List.mapM_cons, ih, each, mapError_bind]
    refine bind_congr fun b => ?_
    rw [mapError_bind]
    rfl

theorem mapM_map {γ : Type} {f : α → Except ε β} (g : β → γ) (l : List α) :
    (l.mapM fun a => (f a).map g) = (l.mapM f).map (List.map g) := by
  induction l with
  | nil => rfl
  | cons a rest ih =>
    rw [List.mapM_cons, List.mapM_cons, ih]
    cases f a with
    | error e => rfl
    | ok b => cases rest.mapM f <;> rfl

theorem exists_mapM_of_perm {f : α → Except ε β} {l l' : List α} {made : List β}
    (perm : l.Perm l') (all : l.mapM f = .ok made) : ∃ made', l'.mapM f = .ok made' ∧ made.Perm made' := by
  obtain ⟨made', others, same⟩ := List.perm_comp_forall₂ perm.symm (mapM_eq_ok.mp all)
  exact ⟨made', mapM_eq_ok.mpr others, same.symm⟩

/-- What is made of some things alone is found among what is made of all. -/
theorem mapM_filter {f : α → Except ε β} {p : α → Bool} {q : β → Bool} {l : List α} {made : List β}
    (agree : ∀ a b, f a = .ok b → p a = q b) (all : l.mapM f = .ok made) :
    (l.filter p).mapM f = .ok (made.filter q) := by
  refine mapM_eq_ok.mpr ?_
  induction mapM_eq_ok.mp all with
  | nil => exact .nil
  | @cons a b l made first others ih =>
    rw [List.filter_cons, List.filter_cons, agree a b first]
    split
    · exact .cons first (ih (mapM_eq_ok.mpr others))
    · exact ih (mapM_eq_ok.mpr others)

theorem exists_of_mem_right {related : α → β → Prop} {l : List α} {made : List β}
    (all : List.Forall₂ related l made) {b : β} (member : b ∈ made) : ∃ a ∈ l, related a b := by
  induction all with
  | nil => contradiction
  | cons first _ ih =>
    rcases List.mem_cons.mp member with rfl | member
    · exact ⟨_, List.mem_cons_self, first⟩
    · obtain ⟨a, inside, fits⟩ := ih member
      exact ⟨a, List.mem_cons_of_mem _ inside, fits⟩

theorem map_eq_of_forall₂ {γ : Type} {f : α → γ} {g : β → γ} {l : List α} {made : List β}
    (all : List.Forall₂ (fun a b => f a = g b) l made) : l.map f = made.map g := by
  rw [← List.forall₂_eq_eq_eq]
  exact List.forall₂_map_left_iff.mpr (List.forall₂_map_right_iff.mpr all)

theorem forall₂_iff_and {related other : α → β → Prop} {holds : α → Prop} {l : List α} {made : List β}
    (each : ∀ a b, related a b ↔ holds a ∧ other a b) :
    List.Forall₂ related l made ↔ (∀ a ∈ l, holds a) ∧ List.Forall₂ other l made := by
  rw [← List.forall₂_and_left]
  exact ⟨fun all => all.imp fun a b => (each a b).mp, fun all => all.imp fun a b => (each a b).mpr⟩

/-- Whether something holds of one of some things that work is done on one after the other, and the work
on all before it is done. -/
inductive FirstOf (f : α → Except ε β) (holds : α → Prop) : List α → Prop
  | here {a : α} (found : holds a) (rest : List α) : FirstOf f holds (a :: rest)
  | later {a : α} {b : β} {rest : List α} (done : f a = .ok b) (next : FirstOf f holds rest) :
    FirstOf f holds (a :: rest)

theorem firstOf_nil {f : α → Except ε β} {holds : α → Prop} : ¬ FirstOf f holds [] := nofun

theorem firstOf_cons {f : α → Except ε β} {holds : α → Prop} {a : α} {rest : List α} :
    FirstOf f holds (a :: rest) ↔ holds a ∨ ∃ b, f a = .ok b ∧ FirstOf f holds rest := by
  constructor
  · intro first
    cases first with
    | here found => exact .inl found
    | later done next => exact .inr ⟨_, done, next⟩
  · rintro (found | ⟨b, done, next⟩)
    · exact .here found rest
    · exact .later done next

/-- Work on some things fails in one way or another where that is so for the first that it fails on. -/
theorem exists_mapM_error {f : α → Except ε β} {fault : ε → Prop} {holds : α → Prop}
    (each : ∀ a, (∃ e, f a = .error e ∧ fault e) ↔ holds a) (l : List α) :
    (∃ e, l.mapM f = .error e ∧ fault e) ↔ FirstOf f holds l := by
  induction l with
  | nil => exact iff_of_false (fun ⟨_, failed, _⟩ => nomatch failed) firstOf_nil
  | cons a rest ih =>
    rw [List.mapM_cons, firstOf_cons, ← ih, ← each a]
    cases f a with
    | error e => simp [bind, Except.bind]
    | ok b =>
      rw [ok_bind]
      cases rest.mapM f with
      | error e => simp [bind, Except.bind]
      | ok bs => simp [bind, Except.bind, pure, Except.pure]

/-- Where work is done on all things of which something does not hold, one of which it holds is enough. -/
theorem firstOf_iff_exists {f : α → Except ε β} {holds : α → Prop} {l : List α}
    (each : ∀ a, holds a ∨ ∃ b, f a = .ok b) : FirstOf f holds l ↔ ∃ a ∈ l, holds a := by
  induction l with
  | nil => simp [firstOf_nil]
  | cons a rest ih =>
    rw [firstOf_cons, ih, List.exists_mem_cons_iff]
    constructor
    · rintro (found | ⟨_, _, later⟩)
      · exact .inl found
      · exact .inr later
    · rintro (found | later)
      · exact .inl found
      · rcases each a with found | ⟨b, done⟩
        · exact .inl found
        · exact .inr ⟨b, done, later⟩

/-- Whether two pieces of work fail for the same reason, or are both done with related outcomes. -/
inductive Matched (related : α → β → Prop) : Except ε α → Except ε β → Prop
  | failed (e : ε) : Matched related (.error e) (.error e)
  | done {a : α} {b : β} (fits : related a b) : Matched related (.ok a) (.ok b)

namespace Matched

variable {γ δ : Type} {related : α → β → Prop} {then' : γ → δ → Prop} {x : Except ε α} {y : Except ε β}

theorem refl {related : α → α → Prop} (each : ∀ a, related a a) (x : Except ε α) : Matched related x x := by
  cases x with
  | error e => exact .failed e
  | ok a => exact .done (each a)

theorem bind {f : α → Except ε γ} {g : β → Except ε δ} (first : Matched related x y)
    (next : ∀ a b, related a b → Matched then' (f a) (g b)) : Matched then' (x >>= f) (y >>= g) := by
  cases first with
  | failed e => exact .failed e
  | done fits => exact next _ _ fits

theorem eq (x : Except ε α) : Matched Eq x x := refl (fun _ => rfl) x

theorem bind_same {f : α → Except ε γ} {g : α → Except ε δ} (x : Except ε α) (next : ∀ a, Matched then' (f a) (g a)) :
    Matched then' (x >>= f) (x >>= g) := by
  refine (eq x).bind fun a b same => ?_
  cases same
  exact next a

theorem symm (first : Matched related x y) : Matched (fun b a => related a b) y x := by
  cases first with
  | failed e => exact .failed e
  | done fits => exact .done fits

theorem trans {related' : β → γ → Prop} {z : Except ε γ} (first : Matched related x y) (second : Matched related' y z) :
    Matched (fun a c => ∃ b, related a b ∧ related' b c) x z := by
  cases first with
  | failed e =>
    cases second
    exact .failed e
  | done fits =>
    cases second with
    | done fits' => exact .done ⟨_, fits, fits'⟩

theorem mapError {ε' : Type} (first : Matched related x y) (f : ε → ε') :
    Matched related (x.mapError f) (y.mapError f) := by
  cases first with
  | failed e => exact .failed (f e)
  | done fits => exact .done fits

theorem weaken {wider : α → β → Prop} (first : Matched related x y) (wide : ∀ a b, related a b → wider a b) :
    Matched wider x y := by
  cases first with
  | failed e => exact .failed e
  | done fits => exact .done (wide _ _ fits)

theorem foldlM {σ τ : Type} {related : σ → τ → Prop} {f : σ → α → Except ε σ} {g : τ → α → Except ε τ}
    (each : ∀ a s t, related s t → Matched related (f s a) (g t a)) (l : List α) {s : σ} {t : τ}
    (start : related s t) : Matched related (l.foldlM f s) (l.foldlM g t) := by
  induction l generalizing s t with
  | nil => exact .done start
  | cons a rest ih =>
    rw [List.foldlM_cons, List.foldlM_cons]
    exact (each a s t start).bind fun s t => ih

end Matched

end Colloquy
