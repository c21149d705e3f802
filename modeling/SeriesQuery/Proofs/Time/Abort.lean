import SeriesQuery.Proofs.Time.Expression

/-!
# Where date arithmetic ends the run

A run of steps ends with an abort exactly if one of the steps that abort is reached
(`Run.abort_iff`). So a date expression ends the run exactly if it can be read and one of these
steps is reached (`resolveDate_abort_iff`).
-/

namespace SeriesQuery

open Text

/-! ## A run of steps -/

section
variable {roundUp : Bool} {anchor d : Instant}

/-- A run goes on behind steps that have led to an instant. -/
theorem Run.append {before steps : List DateStep} {outcome : Except DateFault Instant}
    (h : Run roundUp anchor before (.ok d)) (hrest : Run roundUp d steps outcome) :
    Run roundUp anchor (before ++ steps) outcome := by
  rw [DateExpression.run_iff] at *
  rw [DateExpression.evaluate_append h.symm, hrest]

/-- A run ends with an abort exactly if a step aborts at the instant that the steps before it lead
to. -/
theorem Run.abort_iff {steps : List DateStep} :
    Run roundUp anchor steps (.error .abort) ↔
      ∃ before step after d, steps = before ++ step :: after ∧
        Run roundUp anchor before (.ok d) ∧ step.Aborts d := by
  constructor
  · intro h
    induction steps generalizing anchor with
    | nil => cases h
    | cons step steps ih =>
      cases h with
      | abort habort => exact ⟨[], step, steps, anchor, rfl, .done, habort⟩
      | step hstep hrun =>
        obtain ⟨before, step', after, d, rfl, hbefore, habort⟩ := ih hrun
        exact ⟨step :: before, step', after, d, rfl, .step hstep hbefore, habort⟩
  · rintro ⟨before, step, after, d, rfl, hbefore, habort⟩
    exact hbefore.append (.abort habort)

end

/-! ## Expressions -/

/-- A request is ended by the fault that ends the run, and by no other. -/
theorem DateFault.mapError_eq_abort_iff {text : Text} {outcome : Except DateFault Instant} :
    outcome.mapError (failure text) = .error .abort ↔ outcome = .error .abort := by
  cases outcome with
  | ok d => exact ⟨nofun, nofun⟩
  | error fault =>
    cases fault with
    | unrepresentable => exact ⟨nofun, nofun⟩
    | abort => exact ⟨fun _ => rfl, fun _ => rfl⟩

/-- A date expression ends the run exactly if it has an anchor and its text of steps spells steps,
and one of them that does so is reached, all steps before it leading to an instant. Every other text
is a date or an invalid one. -/
theorem resolveDate_abort_iff (now : Instant) (roundUp : Bool) (text : Text) :
    (resolveDate now roundUp text = .error .abort ↔
      ∃ anchor math before step after d, Anchored now (trim text) (some anchor) math ∧
        SpellsSteps (before ++ step :: after) math ∧ Run roundUp anchor before (.ok d) ∧
        step.Aborts d) ∧
    (resolveDate now roundUp text = .error .abort ∨
      (∃ d, resolveDate now roundUp text = .ok d) ∨
      resolveDate now roundUp text = .error (.error (.invalidDate (trim text)))) := by
  obtain ⟨anchor?, math, hanchored⟩ := exists_anchored now (trim text)
  have hresolve : resolveDate now roundUp text = _ := resolveDate_of_anchored hanchored
  constructor
  · rw [hresolve, DateFault.mapError_eq_abort_iff]
    constructor
    · intro h
      unfold DateExpression.outcome at h
      split at h
      · next anchor steps hsteps =>
        have hrun := DateExpression.run_iff.2 h.symm
        obtain ⟨before, step, after, d, rfl, hbefore, habort⟩ := Run.abort_iff.1 hrun
        exact ⟨anchor, math, before, step, after, d, hanchored, readSteps?_eq_some_iff.1 hsteps,
          hbefore, habort⟩
      · cases h
    · rintro ⟨anchor, math', before, step, after, d, hanchored', hsteps, hbefore, habort⟩
      obtain ⟨rfl, rfl⟩ := hanchored.unique hanchored'
      rw [DateExpression.outcome_of_spellsSteps hsteps]
      have hrun := Run.abort_iff.2 ⟨before, step, after, d, rfl, hbefore, habort⟩
      exact (DateExpression.run_iff.1 hrun).symm
  · rw [hresolve]
    cases DateExpression.outcome roundUp anchor? math with
    | ok d => exact .inr (.inl ⟨d, rfl⟩)
    | error fault =>
      cases fault with
      | unrepresentable => exact .inr (.inr rfl)
      | abort => exact .inl rfl

/-- One second more than a duration can have. -/
example : resolveDate .epoch true "now/d+9223372036854776s".toList = .error .abort := by
  decide +kernel

end SeriesQuery
