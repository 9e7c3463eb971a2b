import Colloquy.Proofs.Settings.Renumbered

/-! Calls as they are read from the command line. The only values in them that a data file could give as well
stand in one place. -/

namespace Colloquy.Invocation

open Data (Renumbering)

variable {call call' : Invocation} {s : Switch} {value : String}

/-- Whether there are no marks in a call. -/
def Unmarked (call : Invocation) : Prop := ∀ ρ : Renumbering, call.seed.map (Data.renumbered ρ) = call.seed

theorem Unmarked.withCall {ρ : Renumbering} (unmarked : call.Unmarked) (settings : Settings) :
    (settings.renumbered ρ).withCall call = (settings.withCall call).renumbered ρ := by
  have same : (settings.renumbered ρ).withCall { call with seed := call.seed.map (Data.renumbered ρ) } = _ :=
    settings.withCall_renumbered call
  rw [unmarked ρ] at same
  exact same

theorem Unmarked.takeTexts {texts : List String} (unmarked : call.Unmarked)
    (taken : takeTexts call texts = .ok call') : call'.Unmarked := by
  rw [Invocation.takeTexts] at taken
  split at taken
  · contradiction
  · cases taken
    exact unmarked

theorem Unmarked.takeValue (unmarked : call.Unmarked) (taken : takeValue call s value = .ok call') :
    call'.Unmarked := by
  cases s with
  | help => contradiction
  | say => exact unmarked.takeTexts taken
  | writeConfig =>
    rw [Invocation.takeValue, takeTarget] at taken
    split at taken
    · contradiction
    · cases taken
      exact unmarked
  | config | script | debug =>
    cases taken
    exact unmarked
  | seed =>
    rw [Invocation.takeValue] at taken
    split at taken
    · cases taken
      exact fun _ => rfl
    · contradiction

theorem Unmarked.takeNothing (unmarked : call.Unmarked) (taken : takeNothing call s = .ok call') :
    call'.Unmarked := by
  unfold Invocation.takeNothing at taken
  split at taken
  · exact unmarked.takeTexts taken
  · cases taken
    exact fun _ => rfl
  · exact unmarked.takeValue taken

theorem Unmarked.takeAttached (unmarked : call.Unmarked) (taken : takeAttached call s value = .ok call') :
    call'.Unmarked := by
  rw [Invocation.takeAttached] at taken
  split at taken
  · exact unmarked.takeNothing taken
  · exact unmarked.takeValue taken

theorem Unmarked.step {p p' : Progress} {group : Word × List String} (unmarked : p.call.Unmarked)
    (taken : step p group = .ok p') : p'.call.Unmarked := by
  have through {x : Except Refusal Invocation} {left : Bool} (each : ∀ call', x = .ok call' → call'.Unmarked)
      (made : x.map (Progress.mk · left) = .ok p') : p'.call.Unmarked := by
    cases x with
    | error why => contradiction
    | ok call' =>
      cases made
      exact each call' rfl
  unfold Invocation.step at taken
  split at taken
  · contradiction
  · cases taken
    exact unmarked
  · exact through (fun _ => unmarked.takeAttached) taken
  · exact through (fun _ => unmarked.takeTexts) taken
  · exact through (fun _ => unmarked.takeValue) taken
  · contradiction
  · contradiction
  · cases taken
    exact unmarked

theorem Unmarked.steps {p p' : Progress} {groups : List (Word × List String)} (unmarked : p.call.Unmarked)
    (taken : groups.foldlM Invocation.step p = .ok p') : p'.call.Unmarked := by
  induction groups generalizing p with
  | nil =>
    cases taken
    exact unmarked
  | cons group rest ih =>
    obtain ⟨_, first, later⟩ := bind_eq_ok.mp taken
    exact ih (unmarked.step first) later

/-- A call that is read has no marks in it. -/
theorem unmarked_of_read {words : List String} (read : Invocation.read words = .ok call) : call.Unmarked := by
  obtain ⟨_, _, read⟩ := bind_eq_ok.mp read
  obtain ⟨p, taken, read⟩ := bind_eq_ok.mp read
  have unmarked : p.call.Unmarked := Unmarked.steps (fun _ => rfl) taken
  split at read
  · contradiction
  · cases read
    exact unmarked

end Colloquy.Invocation
