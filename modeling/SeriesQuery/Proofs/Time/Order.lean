import SeriesQuery.Proofs.Time.Expression
import SeriesQuery.Proofs.Time.Range
import SeriesQuery.Proofs.Time.Unit

/-!
# The order of the bounds

Both bounds of a range are rounded up, the lower one too, so a range comes out in the order of its
bounds as they are rounded up (`TimeRange.resolve_ofTexts_order`). A bound without a rounding step
is the same in either direction (`resolveDate_eq_of_slash_not_mem`). But a lower bound such as
`now/d` is the end of the unit that the present lies in, and a range from there to the present is
inverted unless the unit ends within a second.
-/

namespace SeriesQuery

open Text

/-! ## Expressions without rounding steps -/

/-- The direction of rounding does not matter to steps that round nothing. -/
theorem DateExpression.evaluate_eq_of_slash_not_mem {anchor : Instant} :
    ∀ {steps : List DateStep}, '/' ∉ steps.flatMap DateStep.spell →
      evaluate true ⟨anchor, steps⟩ = evaluate false ⟨anchor, steps⟩ := by
  intro steps
  induction steps generalizing anchor with
  | nil => exact fun _ => rfl
  | cons step steps ih =>
    intro h
    rw [List.flatMap_cons, List.mem_append, not_or] at h
    obtain ⟨hstep, hsteps⟩ := h
    have hstep : step.apply true anchor = step.apply false anchor := by
      cases step with
      | shift => rfl
      | round unit => exact absurd (List.mem_cons_self ..) hstep
    unfold evaluate at *
    rw [List.foldlM_cons, List.foldlM_cons, hstep]
    cases step.apply false anchor with
    | error fault => rfl
    | ok d => exact ih hsteps

/-- The steps stand at the end of the text. -/
theorem Anchored.suffix {now : Instant} {s math : Text} {anchor? : Option Instant}
    (h : Anchored now s anchor? math) : math <:+ s := by
  cases h with
  | present hs => exact ⟨_, hs.symm⟩
  | bars _ hbars => exact ⟨_, hbars.eq_append.symm⟩
  | alone _ _ hmath => exact hmath ▸ List.nil_suffix

/-- The direction of rounding does not matter to a text without a slash. -/
theorem resolveDate_eq_of_slash_not_mem (now : Instant) {text : Text} (h : '/' ∉ text) :
    resolveDate now true text = resolveDate now false text := by
  obtain ⟨anchor?, math, hanchored⟩ := exists_anchored now (trim text)
  have hmath : '/' ∉ math := by
    obtain ⟨b, b', -, -, htext⟩ := exists_blanks_trim text
    intro hslash
    refine h ?_
    rw [htext]
    simp [hanchored.suffix.subset hslash]
  rw [resolveDate_of_anchored hanchored, resolveDate_of_anchored hanchored]
  congr 1
  unfold DateExpression.outcome
  split
  · next anchor steps hsteps =>
    obtain ⟨-, rfl⟩ := readSteps?_eq_some_iff.1 hsteps
    exact DateExpression.evaluate_eq_of_slash_not_mem hmath
  · rfl

/-! ## Units of the present -/

/-- The expression for the unit that the present lies in. -/
def DateUnit.ofPresent (unit : DateUnit) : Text := DateExpression.present ++ ['/', unit.letter]

/-- The word for the present is resolved to the present. -/
theorem resolveDate_present (now : Instant) (roundUp : Bool) {text : Text}
    (h : trim text = DateExpression.present) : resolveDate now roundUp text = .ok now := by
  have hanchored : Anchored now (trim text) (some now) [] := .present h rfl
  rw [resolveDate_of_anchored hanchored]
  rfl

/-- The unit of the present is rounded to like any instant. -/
theorem resolveDate_ofPresent (now : Instant) (roundUp : Bool) {text : Text} {unit : DateUnit}
    (h : trim text = unit.ofPresent) :
    resolveDate now roundUp text =
      ((DateStep.round unit).apply roundUp now).mapError (DateFault.failure (trim text)) := by
  have hanchored : Anchored now (trim text) (some now) ['/', unit.letter] := .present h rfl
  have hsteps : SpellsSteps [.round unit] ['/', unit.letter] :=
    ⟨by simp [DateStep.IsWritable], rfl⟩
  rw [resolveDate_of_anchored hanchored, DateExpression.outcome_of_spellsSteps hsteps]
  congr 1
  exact bind_pure _

/-- The end of a unit, rounded up to seconds, is the first second of the next unit. -/
theorem Instant.ceilSeconds_endOf {d e : Instant} {unit : DateUnit} (h : d.endOf unit = .ok e) :
    e.ceilSeconds = unit.first d.seconds + unit.length d.seconds := by
  have hend := millis_endOf h
  unfold ceilSeconds
  omega

/-! ## The order -/

namespace TimeRange

variable {now : Instant} {lower upper : Text} {rounding : Option Text} {interval : Text}
  {factor : UInt32} {ctx : TimeContext}

/-- Without rounding to a duration, a range between two expressions runs between the two instants
that they are rounded up to, each in seconds, and it is in order if these are. That is so whenever
the lower expression has no slash and, in whatever direction it is rounded, is not after the upper
one. From a unit of the present to the present, the range runs backwards from the first second of
the next unit, and has a length unless that unit begins within a second. -/
theorem resolve_ofTexts_order (hrounding : Bound.IsUnrounded rounding)
    (h : (ofTexts lower upper).resolve now rounding interval factor = .ok ctx) :
    (∃ l u, resolveDate now true lower = .ok l ∧ resolveDate now true upper = .ok u ∧
      ctx.lower = ⌈(l.millis : ℚ) / 1000⌉ ∧ ctx.upper = ⌈(u.millis : ℚ) / 1000⌉ ∧
      (l.millis ≤ u.millis → ctx.lower ≤ ctx.upper) ∧
      ('/' ∉ lower → ∀ d, resolveDate now false lower = .ok d → d.millis ≤ u.millis →
        ctx.lower ≤ ctx.upper)) ∧
    ∀ unit : DateUnit, trim lower = unit.ofPresent → trim upper = DateExpression.present →
      ¬ now.InLeapSecond →
        ctx.lower = unit.first now.seconds + unit.length now.seconds ∧
        ctx.upper = ⌈(now.millis : ℚ) / 1000⌉ ∧ ctx.upper ≤ ctx.lower ∧
        (ctx.upper = ctx.lower ↔ ctx.lower * 1000 < now.millis + 1000) := by
  obtain ⟨l, u, hl, hu, hframes⟩ := frames_of_resolve h
  have hlower := hframes.lower_eq hrounding
  refine ⟨⟨l, u, hl, hu, hlower, hframes.upper_eq, hframes.lower_le_upper, ?_⟩, ?_⟩
  · intro hslash d hd hle
    rw [← resolveDate_eq_of_slash_not_mem now hslash] at hd
    obtain rfl : l = d := Except.ok.inj (hl.symm.trans hd)
    exact hframes.lower_le_upper hle
  · intro unit htrim htrim' hleap
    rw [show (ofTexts lower upper).lower.resolve now = resolveDate now true lower from rfl,
      resolveDate_ofPresent now true htrim] at hl
    have hend : now.endOf unit = .ok l := mapError_eq_ok_iff.1 hl
    have hu' : resolveDate now true upper = .ok u := hu
    rw [resolveDate_present now true htrim'] at hu'
    obtain rfl : now = u := Except.ok.inj hu'
    have hmillis := Instant.millis_endOf hend
    have hle := Instant.millis_le_endOf hleap hend
    have hupper := hframes.upper_eq
    rw [← Instant.ceilSeconds_eq_ceil] at hlower hupper
    rw [Instant.ceilSeconds_endOf hend] at hlower
    rw [← Instant.ceilSeconds_eq_ceil]
    unfold Instant.ceilSeconds at *
    refine ⟨hlower, hupper, ?_, ?_⟩ <;> omega

/-- The 13th of March 2024 at 15:42:17. -/
def afternoon : Instant where
  seconds := 1710344537
  nanos := 0
  nanos_lt := Instant.epoch_nanos_lt

/-- An hour back from an afternoon is in order; from the unit of its day on, the range runs back
from midnight. -/
theorem resolve_ofTexts_order_afternoon :
    (∃ ctx, (ofTexts "now-1h".toList "now".toList).resolve afternoon none "30s".toList 1 = .ok ctx ∧
      ctx.lower ≤ ctx.upper) ∧
    (∃ ctx, (ofTexts "now/d".toList "now".toList).resolve afternoon none "30s".toList 1 = .ok ctx ∧
      ctx.lower = DateUnit.day.first 1710344537 + 86400 ∧ ctx.upper ≤ ctx.lower) := by
  constructor
  · have hresolve : (ofTexts "now-1h".toList "now".toList).resolve afternoon none "30s".toList 1 =
        .ok ⟨1710340937, 1710344537, 30, true⟩ := by decide +kernel
    have hlower : resolveDate afternoon false "now-1h".toList =
        .ok { seconds := 1710340937, nanos := 0 } := by decide +kernel
    obtain ⟨⟨l, u, -, hu, -, -, -, horder⟩, -⟩ := resolve_ofTexts_order (.inl rfl) hresolve
    rw [resolveDate_present afternoon true (by decide)] at hu
    cases hu
    exact ⟨_, hresolve, horder (by decide) _ hlower (by decide)⟩
  · have hresolve : (ofTexts "now/d".toList "now".toList).resolve afternoon none "30s".toList 1 =
        .ok ⟨1710374400, 1710344537, 30, true⟩ := by decide +kernel
    obtain ⟨-, hunit⟩ := resolve_ofTexts_order (.inl rfl) hresolve
    obtain ⟨hlower, -, hle, -⟩ := hunit .day (by decide) (by decide) (by decide)
    exact ⟨_, hresolve, hlower, hle⟩

/-- Rounded down, the bounds are in order, but the range is inverted. -/
theorem resolve_ofTexts_inverted :
    ∃ d u ctx, resolveDate afternoon false "now/d".toList = .ok d ∧
      resolveDate afternoon true "now".toList = .ok u ∧ d.millis ≤ u.millis ∧
      (ofTexts "now/d".toList "now".toList).resolve afternoon none "30s".toList 1 = .ok ctx ∧
      ¬ ctx.lower ≤ ctx.upper := by
  have hlower : resolveDate afternoon false "now/d".toList =
      .ok { seconds := 1710288000, nanos := 0 } := by decide +kernel
  have hupper : resolveDate afternoon true "now".toList = .ok afternoon := by decide +kernel
  have hresolve : (ofTexts "now/d".toList "now".toList).resolve afternoon none "30s".toList 1 =
      .ok ⟨1710374400, 1710344537, 30, true⟩ := by decide +kernel
  exact ⟨_, _, _, hlower, hupper, by decide, hresolve, by decide⟩

end TimeRange

end SeriesQuery
