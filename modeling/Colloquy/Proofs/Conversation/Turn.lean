import Colloquy.Conversation

/-! Steps of a conversation that keep what holds of it and fail only for reasons that are allowed. -/

namespace Colloquy.Turn

variable {α β : Type} {c : Conversation}

/-- A step carried out: what it gives, and the conversation after it. -/
def apply (t : Turn α) (c : Conversation) : Except Failure α × Conversation :=
  StateT.run (ExceptT.run t) c

@[simp] theorem apply_pure (a : α) : (pure a : Turn α).apply c = (.ok a, c) := rfl

@[simp] theorem apply_get : (get : Turn Conversation).apply c = (.ok c, c) := rfl

@[simp] theorem apply_set (d : Conversation) : (set d : Turn Unit).apply c = (.ok (), d) := rfl

@[simp] theorem apply_changeSession (f : Session → Session) :
    (changeSession f).apply c = (.ok (), { c with session := f c.session }) := rfl

/-- A step and then another one, carried out. After a failure of the first nothing more is done. -/
theorem apply_bind (t : Turn α) (f : α → Turn β) :
    (t >>= f).apply c =
      match t.apply c with
      | (.ok a, c') => (f a).apply c'
      | (.error failure, c') => (.error failure, c') := by
  simp only [apply, ExceptT.run, StateT.run, Bind.bind, ExceptT.bind, ExceptT.mk, StateT.bind]
  rcases t c with ⟨failed | a, c'⟩ <;> rfl

/-- Where a step may land: where something holds, with such a value, or in such a failure. What held
before a failure may be lost with it. -/
inductive Lands (holds : Conversation → Prop) (value : α → Prop)
    (failure : Failure → Conversation → Prop) : Except Failure α × Conversation → Prop
  | ok {a : α} {c : Conversation} (after : holds c) (fits : value a) : Lands holds value failure (.ok a, c)
  | error {f : Failure} {c : Conversation} (fails : failure f c) :
      Lands holds value failure (.error f, c)

/-- Whether a step lands so from wherever something holds. -/
def Sound (holds : Conversation → Prop) (t : Turn α) (value : α → Prop)
    (failure : Failure → Conversation → Prop) : Prop :=
  ∀ c, holds c → Lands holds value failure (t.apply c)

/-- Whether a step keeps what holds of a conversation, gives only such values, and fails only so. -/
def Safe (holds : Conversation → Prop) (t : Turn α) (value : α → Prop)
    (failure : Failure → Conversation → Prop) : Prop :=
  ∀ c, holds c → holds (t.apply c).2 ∧
    match t.apply c with
    | (.ok a, _) => value a
    | (.error f, c') => failure f c'

variable {holds : Conversation → Prop} {failure : Failure → Conversation → Prop} {t : Turn α}
  {f : α → Turn β} {value : α → Prop} {result : β → Prop}

namespace Sound

theorem done {a : α} (fits : value a) : Sound holds (pure a) value failure :=
  fun _ before => .ok before fits

theorem bind (first : Sound holds t value failure)
    (next : ∀ a, value a → Sound holds (f a) result failure) :
    Sound holds (t >>= f) result failure := by
  intro c before
  have lands := first c before
  rw [apply_bind]
  cases applied : t.apply c with
  | mk given c' =>
    rw [applied] at lands
    cases lands with
    | ok after fits => exact next _ fits c' after
    | error fails => exact .error fails

theorem read : Sound holds get (fun _ : Conversation => True) failure :=
  fun _ before => .ok before trivial

theorem change {change : Session → Session}
    (keeps : ∀ c, holds c → holds { c with session := change c.session }) :
    Sound holds (changeSession change) (fun _ => True) failure :=
  fun c before => .ok (keeps c before) trivial

theorem note {level : Log.Level} {message : String} {trace : List (String × Log.TraceValue)}
    (keeps : ∀ c records, holds c → holds { c with records }) :
    Sound holds (Turn.note level message trace) (fun _ => True) failure :=
  fun c before => .ok (keeps c _ before) trivial

end Sound

/-- A safe step is a sound one that keeps what holds also when it fails. -/
theorem safe_iff_sound : Safe holds t value failure ↔
    Sound holds t value fun f c => holds c ∧ failure f c := by
  refine forall_congr' fun c => imp_congr_right fun _ => ?_
  rcases t.apply c with ⟨f | a, c'⟩
  · refine ⟨fun gives => .error gives, fun lands => ?_⟩
    cases lands with
    | error fails => exact fails
  · refine ⟨fun gives => .ok gives.1 gives.2, fun lands => ?_⟩
    cases lands with
    | ok after fits => exact ⟨after, fits⟩

namespace Safe

theorem keeps (safe : Safe holds t value failure) (before : holds c) : holds (t.apply c).2 :=
  (safe c before).1

theorem done {a : α} (fits : value a) : Safe holds (pure a) value failure :=
  safe_iff_sound.mpr (.done fits)

theorem bind (first : Safe holds t value failure)
    (next : ∀ a, value a → Safe holds (f a) result failure) :
    Safe holds (t >>= f) result failure :=
  safe_iff_sound.mpr <| (safe_iff_sound.mp first).bind fun a fits => safe_iff_sound.mp (next a fits)

theorem read : Safe holds get (fun _ : Conversation => True) failure := safe_iff_sound.mpr .read

theorem change {change : Session → Session}
    (keeps : ∀ c, holds c → holds { c with session := change c.session }) :
    Safe holds (changeSession change) (fun _ => True) failure :=
  safe_iff_sound.mpr (.change keeps)

theorem note {level : Log.Level} {message : String} {trace : List (String × Log.TraceValue)}
    (keeps : ∀ c records, holds c → holds { c with records }) :
    Safe holds (Turn.note level message trace) (fun _ => True) failure :=
  safe_iff_sound.mpr (.note keeps)

end Safe
end Colloquy.Turn
