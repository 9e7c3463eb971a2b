import Colloquy.Proofs.Data.Renumbered
import Colloquy.Proofs.Outcome

/-! Failures that differ in the marks of values. Of such failures the same is told. -/

namespace Colloquy

open Data

variable {ρ : Renumbering} {α : Type}

def ScriptProblem.renumbered (ρ : Renumbering) : ScriptProblem → ScriptProblem
  | .malformedEntry why entry => .malformedEntry why (entry.renumbered ρ)
  | .notRule entry => .notRule (entry.renumbered ρ)
  | .notDecomposition keyword entry => .notDecomposition (keyword.renumbered ρ) (entry.renumbered ρ)
  | .badKeyword keyword => .badKeyword (keyword.renumbered ρ)
  | .badRank keyword rank => .badRank keyword (rank.renumbered ρ)
  | .badPattern keyword pattern => .badPattern keyword (pattern.renumbered ρ)
  | .badTransform item => .badTransform (item.renumbered ρ)
  | p => p

def SettingsProblem.renumbered (ρ : Renumbering) : SettingsProblem → SettingsProblem
  | .badCapacity value => .badCapacity (value.renumbered ρ)
  | .badHopLimit value => .badHopLimit (value.renumbered ρ)
  | .badSeed value => .badSeed (value.renumbered ρ)
  | .noRandomSource got => .noRandomSource (got.renumbered ρ)
  | p => p

def Problem.renumbered (ρ : Renumbering) : Problem → Problem
  | .script p => .script (p.renumbered ρ)
  | .rules p => .rules p
  | .settings p => .settings (p.renumbered ρ)

/-- A failure with the values in it under other marks. -/
def Failure.renumbered (ρ : Renumbering) : Failure → Failure
  | .reported p => .reported (p.renumbered ρ)
  | .breakdown b => .breakdown b

/-- The report of a problem has the same message, and details that are the same but for their marks. -/
theorem Problem.report_renumbered (p : Problem) :
    (p.renumbered ρ).report = { p.report with details := p.report.details.renumbered ρ } := by
  cases p with
  | script p =>
    cases p <;>
      simp only [renumbered, ScriptProblem.renumbered, report, ScriptProblem.report, shown_renumbered] <;> rfl
  | rules p => cases p <;> rfl
  | settings p =>
    cases p <;>
      simp only [renumbered, SettingsProblem.renumbered, report, SettingsProblem.report, shown_renumbered] <;> rfl

theorem Problem.shownValues_renumbered (p : Problem) :
    (p.renumbered ρ).shownValues = p.shownValues.map (Data.renumbered ρ) := by
  cases p with
  | script p => cases p <;> rfl
  | rules p => rfl
  | settings p => cases p <;> rfl

namespace Failure

theorem because_renumbered (p : Problem) : (because p).renumbered ρ = because (p.renumbered ρ) := by
  have all : (p.renumbered ρ).shownValues.all Data.isShowable = p.shownValues.all Data.isShowable := by
    rw [Problem.shownValues_renumbered, List.all_map]
    exact congrArg p.shownValues.all (funext isShowable_renumbered)
  rw [because, because, all]
  split <;> rfl

theorem mapError_script (p : ScriptProblem) :
    (.error (script p) : Except Failure α).mapError (renumbered ρ) = .error (script (p.renumbered ρ)) :=
  congrArg Except.error (because_renumbered (.script p))

theorem mapError_settings (p : SettingsProblem) :
    (.error (settings p) : Except Failure α).mapError (renumbered ρ) = .error (settings (p.renumbered ρ)) :=
  congrArg Except.error (because_renumbered (.settings p))

theorem mapError_breakdown (x : Except Breakdown α) :
    (x.mapError breakdown).mapError (renumbered ρ) = x.mapError breakdown := by
  cases x <;> rfl

/-- What is told of a failure at the end of a run: the text of its report, if its details have one. -/
def notice : Failure → Except Breakdown String
  | .reported p => if p.report.details.isShowable then .ok p.report.text else .error .badValue
  | .breakdown b => .error b

/-- The marks of values make no difference to what is told. -/
theorem notice_renumbered (failure : Failure) : (failure.renumbered ρ).notice = failure.notice := by
  cases failure with
  | reported p =>
    simp only [renumbered, notice, Problem.report_renumbered, Report.text, isShowable_renumbered,
      isTruthy_renumbered, plain_renumbered]
  | breakdown b => rfl

theorem renumbered_refl (failure : Failure) : failure.renumbered (.refl _) = failure := by
  cases failure with
  | reported p =>
    refine congrArg reported ?_
    cases p with
    | script p => cases p <;> simp only [Problem.renumbered, ScriptProblem.renumbered, Data.renumbered_refl]
    | rules p => rfl
    | settings p => cases p <;> simp only [Problem.renumbered, SettingsProblem.renumbered, Data.renumbered_refl]
  | breakdown b => rfl

end Failure

/-- Whether two pieces of work are both done with related outcomes, or fail so that the same is told. -/
inductive Ends {β : Type} (related : α → β → Prop) : Except Failure α → Except Failure β → Prop
  | failed {failure failure' : Failure} (told : failure.notice = failure'.notice) :
    Ends related (.error failure) (.error failure')
  | done {a : α} {b : β} (fits : related a b) : Ends related (.ok a) (.ok b)

namespace Ends

variable {β γ δ : Type} {related : α → β → Prop} {x : Except Failure α} {y : Except Failure β}

theorem of_matched (matched : Matched related (x.mapError (Failure.renumbered ρ)) y) : Ends related x y := by
  cases x with
  | error failure =>
    cases matched
    exact .failed failure.notice_renumbered.symm
  | ok a =>
    cases matched with
    | done fits => exact .done fits

theorem refl (x : Except Failure α) : Ends Eq x x := by
  cases x with
  | error failure => exact .failed rfl
  | ok a => exact .done rfl

theorem bind {next : γ → δ → Prop} {f : α → Except Failure γ} {g : β → Except Failure δ} (first : Ends related x y)
    (then_ : ∀ a b, related a b → Ends next (f a) (g b)) : Ends next (x >>= f) (y >>= g) := by
  cases first with
  | failed told => exact .failed told
  | done fits => exact then_ _ _ fits

theorem bind_same {next : γ → δ → Prop} {f : α → Except Failure γ} {g : α → Except Failure δ} (x : Except Failure α)
    (then_ : ∀ a, Ends next (f a) (g a)) : Ends next (x >>= f) (x >>= g) := by
  refine (refl x).bind fun a b same => ?_
  cases same
  exact then_ a

end Ends

end Colloquy
