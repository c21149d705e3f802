import SeriesQuery.Proofs.Compile.Outcome
import SeriesQuery.Proofs.Time.Range

/-!
# Widths of buckets

A bucket is never empty: a resolved duration is at least as many seconds as its factor, a target
with the factor zero takes one instead (`Target.le_interval_of_timeContext`), and the duration that
a bound is rounded to is a second at least (`Bound.le_of_roundingMillis`). So nothing that is
divided by one of them is divided by zero. `bucketSeconds_scales` puts this together and adds that
widths grow with the magnitude and the factor.
-/

namespace SeriesQuery

open Text

/-- The interval of a resolved range is the width of a bucket. -/
theorem TimeRange.bucketSeconds_of_resolve {now : Instant} {range : TimeRange}
    {rounding : Option Text} {interval : Text} {factor : UInt32} {time : TimeContext}
    (h : range.resolve now rounding interval factor = .ok time) :
    bucketSeconds interval factor = .ok time.interval := by
  obtain ⟨b, -, h⟩ := bind_eq_ok_iff.1 h
  obtain ⟨lower, -, h⟩ := bind_eq_ok_iff.1 h
  obtain ⟨upper, -, h⟩ := bind_eq_ok_iff.1 h
  obtain ⟨width, hwidth, h⟩ := bind_eq_ok_iff.1 h
  cases h
  exact mapError_eq_ok_iff.1 hwidth

/-- The interval of a target is as wide as its factor, and a second at least. -/
theorem Target.le_interval_of_timeContext {t : Target} {registry : Registry} {request : Request}
    {time : TimeContext} (h : t.timeContext registry request = .ok time) :
    max 1 (t.intervalFactor.toNat : ℤ) ≤ time.interval := by
  have hle := le_of_bucketSeconds (TimeRange.bucketSeconds_of_resolve h)
  split at hle
  · next hzero =>
    rw [hzero]
    exact hle
  · next hfactor =>
    have hne : t.intervalFactor.toNat ≠ 0 := fun hzero => hfactor (UInt32.toNat_inj.1 hzero)
    exact max_le (by omega) hle

/-- The duration that a bound is rounded to is a second at least. -/
theorem Bound.le_of_roundingMillis {rounding : Text} {c : ℤ}
    (h : roundingMillis rounding = .ok c) : 1000 ≤ c := by
  obtain ⟨seconds, -, rfl, hpos, -⟩ := exists_of_roundingMillis h
  omega

/-- A width of a bucket is at least its factor and a word of 64 bits. Of two durations of one unit,
if the one of the greater magnitude has a width with the greater factor, the other has one with the
smaller factor, and it is not wider. So the interval of a time context is at least the factor of its
target, and at least a second also if that factor is zero, and a bound is rounded to a thousand
milliseconds or more. -/
theorem bucketSeconds_scales :
    (∀ (s : Text) (factor : UInt32) (c : ℤ), bucketSeconds s factor = .ok c →
      (factor.toNat : ℤ) ≤ c ∧ c < 2 ^ 63) ∧
    (∀ (s s' : Text) (d d' : Duration) (factor factor' : UInt32) (c' : ℤ),
      Duration.find s = .ok d → Duration.find s' = .ok d' → d.unit = d'.unit →
      d.magnitude ≤ d'.magnitude → factor ≤ factor' → bucketSeconds s' factor' = .ok c' →
      ∃ c, bucketSeconds s factor = .ok c ∧ c ≤ c') ∧
    (∀ (t : Target) (registry : Registry) (request : Request) (time : TimeContext),
      t.timeContext registry request = .ok time →
      max 1 (t.intervalFactor.toNat : ℤ) ≤ time.interval) ∧
    ∀ (rounding : Text) (c : ℤ), Bound.roundingMillis rounding = .ok c → 1000 ≤ c := by
  refine ⟨?_, ?_, ?_, ?_⟩
  · intro s factor c h
    obtain ⟨d, -, -, hword⟩ := bucketSeconds_eq_ok_iff.1 h
    refine ⟨le_of_bucketSeconds h, ?_⟩
    unfold IsWord at hword
    omega
  · intro s s' d d' factor factor' c' hd hd' hunit hmagnitude hfactor h
    exact exists_bucketSeconds_le hd hd' hunit hmagnitude hfactor h
  · intro t registry request time h
    exact Target.le_interval_of_timeContext h
  · intro rounding c h
    exact Bound.le_of_roundingMillis h

/-- A target with buckets of ten minutes that are scaled by zero. -/
def Target.unscaled : Target where
  interval := some "10m".toList
  intervalFactor := 0

/-- The width of a second and a half, three times, is not below three and not above that of a longer
duration with a larger factor; a target without a factor has the automatic interval; and a rounding
to a millisecond is one to a second. -/
theorem bucketSeconds_scales_unscaled :
    (bucketSeconds "1500ms".toList 3 = .ok 5 ∧ ((3 : UInt32).toNat : ℤ) ≤ 5 ∧ (5 : ℤ) < 2 ^ 63) ∧
    (bucketSeconds "every 2500ms".toList 5 = .ok 13 ∧
      ∃ c, bucketSeconds "1500ms".toList 3 = .ok c ∧ c ≤ 13) ∧
    (Target.unscaled.timeContext .empty .firstMinute = .ok ⟨0, 60, 600, true⟩ ∧
      max 1 (Target.unscaled.intervalFactor.toNat : ℤ) ≤ 600) ∧
    Bound.roundingMillis "1ms".toList = .ok 1000 ∧ (1000 : ℤ) ≤ 1000 := by
  obtain ⟨hscale, hmono, htarget, hrounding⟩ := bucketSeconds_scales
  have hscaled : bucketSeconds "1500ms".toList 3 = .ok 5 := by decide +kernel
  have hd : Duration.find "1500ms".toList = .ok ⟨1500, .millisecond, by decide⟩ := by
    decide +kernel
  have hd' : Duration.find "every 2500ms".toList = .ok ⟨2500, .millisecond, by decide⟩ := by
    decide +kernel
  have hlonger : bucketSeconds "every 2500ms".toList 5 = .ok 13 := by decide +kernel
  have htime : Target.unscaled.timeContext .empty .firstMinute = .ok ⟨0, 60, 600, true⟩ := by
    decide +kernel
  have hshort : Bound.roundingMillis "1ms".toList = .ok 1000 := by decide +kernel
  exact ⟨⟨hscaled, hscale _ _ _ hscaled⟩,
    ⟨hlonger, hmono _ _ _ _ _ _ _ hd hd' rfl (by decide) (by decide) hlonger⟩,
    ⟨htime, htarget _ _ _ _ htime⟩, hshort, hrounding _ _ hshort⟩

end SeriesQuery
