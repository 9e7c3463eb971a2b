import Colloquy.Failure
import Colloquy.Log.Record

/-! Work that notes records and may fail. What was noted before a failure is kept. -/

namespace Colloquy.Log

/-- The outcome of work: its records, oldest first, and its value or the reason why it has none. -/
structure Noted (α : Type) where
  records : List Record
  outcome : Except Failure α

namespace Noted

variable {α β : Type}

protected def pure (a : α) : Noted α := ⟨[], .ok a⟩

protected def bind (x : Noted α) (f : α → Noted β) : Noted β :=
  match x.outcome with
  | .ok a => ⟨x.records ++ (f a).records, (f a).outcome⟩
  | .error e => ⟨x.records, .error e⟩

instance : Monad Noted where
  pure := Noted.pure
  bind := Noted.bind

def ofExcept (x : Except Failure α) : Noted α := ⟨[], x⟩

def fail (e : Failure) : Noted α := ⟨[], .error e⟩

def note (records : List Record) : Noted Unit := ⟨records, .ok ()⟩

theorem bind_def (x : Noted α) (f : α → Noted β) : x >>= f = Noted.bind x f := rfl

theorem id_map (x : Noted α) : id <$> x = x := by
  obtain ⟨records, outcome | a⟩ := x
  · rfl
  · exact congrArg (Noted.mk · (.ok a)) (List.append_nil records)

theorem bind_assoc {γ : Type} (x : Noted α) (f : α → Noted β) (g : β → Noted γ) :
    x >>= f >>= g = x >>= fun a => f a >>= g := by
  obtain ⟨records, outcome | a⟩ := x
  · rfl
  · simp only [bind_def, Noted.bind]
    cases (f a).outcome with
    | error e => rfl
    | ok b => simp only [List.append_assoc]

instance : LawfulMonad Noted :=
  LawfulMonad.mk' Noted id_map (fun _ _ => rfl) bind_assoc

@[simp] theorem outcome_pure (a : α) : (pure a : Noted α).outcome = .ok a := rfl

@[simp] theorem outcome_bind (x : Noted α) (f : α → Noted β) :
    (x >>= f).outcome = x.outcome >>= fun a => (f a).outcome := by
  cases x with
  | mk records outcome => cases outcome <;> rfl

@[simp] theorem outcome_ofExcept (x : Except Failure α) : (ofExcept x).outcome = x := rfl

@[simp] theorem outcome_fail (e : Failure) : (fail e : Noted α).outcome = .error e := rfl

@[simp] theorem outcome_note (records : List Record) : (note records).outcome = .ok () := rfl

theorem outcome_mapM (f : α → Noted β) (l : List α) :
    (l.mapM f).outcome = l.mapM fun a => (f a).outcome := by
  induction l with
  | nil => rfl
  | cons a rest ih =>
    simp only [List.mapM_cons, outcome_bind, ih, outcome_pure]
    rfl

end Noted
end Colloquy.Log
