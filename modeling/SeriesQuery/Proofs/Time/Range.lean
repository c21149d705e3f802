import SeriesQuery.Proofs.Duration
import SeriesQuery.Proofs.Time.Instant
import SeriesQuery.Time.Range

/-!
# Bounds of a range

Where a rounding is set, the lower bound is taken down to a multiple of its duration, and rounding
a bound that is rounded already changes nothing (`Bound.round_round`). `Bound.round_eq` is the one
equation behind this: what rounding gives for a bound and a duration that are resolved, with the two
ways in which it can fail. A resolved time context then frames the range (`TimeContext.Frames`).

All this is reckoned with integers of any size. The same steps taken in words of 64 bits
(`floorInWords?`, `ceilSecondsInWords?`) always have a value, and the same one, so nothing
overflows and nothing is divided by zero. `TimeRange.resolve_frames` puts this together.
-/

namespace SeriesQuery

open Text

/-! ## Arithmetic in words -/

namespace Word

/-- A number as a signed word of 64 bits, if it fits one. -/
def ofInt? (n : ℤ) : Option ℤ := if IsWord n then some n else none

def add? (a b : ℤ) : Option ℤ := ofInt? (a + b)

def mul? (a b : ℤ) : Option ℤ := ofInt? (a * b)

/-- The quotient of which the remainder is not negative, unless the divisor is zero. -/
def div? (a b : ℤ) : Option ℤ := if b = 0 then none else ofInt? (a / b)

/-- The remainder, where there is a quotient. -/
def mod? (a b : ℤ) : Option ℤ := (div? a b).map fun _ => a % b

variable {a b : ℤ}

theorem ofInt?_eq (h : IsWord a) : ofInt? a = some a := if_pos h

theorem mul?_eq (h : IsWord (a * b)) : mul? a b = some (a * b) := if_pos h

/-- Words are divided within words. -/
theorem div?_eq (hb : b ≠ 0) (h : IsWord (a / b)) : div? a b = some (a / b) := by
  rw [div?, if_neg hb, ofInt?_eq h]

/-- A remainder is taken where there is a quotient. -/
theorem mod?_eq (hb : b ≠ 0) (h : IsWord (a / b)) : mod? a b = some (a % b) := by
  rw [mod?, div?_eq hb h, Option.map_some]

end Word

/-- The last multiple of a unit that is not above a number, in words. -/
def floorInWords? (millis unit : ℤ) : Option ℤ := do
  let millis ← Word.ofInt? millis
  let unit ← Word.ofInt? unit
  Word.mul? (← Word.div? millis unit) unit

/-- The seconds of milliseconds in words: the full ones, and one more if anything remains. -/
def ceilSecondsInWords? (millis : ℤ) : Option ℤ := do
  let millis ← Word.ofInt? millis
  let rest ← Word.mod? millis 1000
  Word.add? (← Word.div? millis 1000) (if 0 < rest then 1 else 0)

/-- Milliseconds of an instant are taken down to a multiple of a positive word within words. -/
theorem floorInWords?_eq (d : Instant) {unit : ℤ} (hunit : 0 < unit) (hword : IsWord unit) :
    floorInWords? d.millis unit = some (d.millis / unit * unit) := by
  have hmillis := d.isWord_millis
  have hmem := d.millis_mem
  unfold Instant.firstMilli Instant.lastMilli firstSecond lastSecond at hmem
  have hle := Int.ediv_mul_le d.millis hunit.ne'
  have hlt := Int.lt_ediv_add_one_mul_self d.millis hunit
  have hquotient : IsWord (d.millis / unit) := by
    have habs := Int.natAbs_ediv_le_natAbs d.millis unit
    unfold IsWord
    omega
  have hproduct : IsWord (d.millis / unit * unit) := by
    unfold IsWord at *
    rw [add_mul, one_mul] at hlt
    rcases le_total unit (-d.millis) with h | h
    · omega
    · -- A unit longer than the time back to the epoch: the quotient is not below minus one.
      have hquotient : -1 ≤ d.millis / unit := by
        rw [Int.le_ediv_iff_mul_le hunit]
        omega
      have hproduct : -1 * unit ≤ d.millis / unit * unit :=
        mul_le_mul_of_nonneg_right hquotient hunit.le
      omega
  simp only [floorInWords?, Word.ofInt?_eq hmillis, Word.ofInt?_eq hword,
    Word.div?_eq hunit.ne' hquotient, Option.bind_eq_bind, Option.bind_some,
    Word.mul?_eq hproduct]

/-- Milliseconds of an instant are rounded up to seconds within words. -/
theorem ceilSecondsInWords?_eq (d : Instant) :
    ceilSecondsInWords? d.millis = some d.ceilSeconds := by
  have hmillis := d.isWord_millis
  have hquotient : IsWord (d.millis / 1000) := by
    unfold IsWord at *
    omega
  have hsum : d.millis / 1000 + (if 0 < d.millis % 1000 then 1 else 0) = d.ceilSeconds := by
    unfold Instant.ceilSeconds
    split <;> omega
  have hword : IsWord d.ceilSeconds := by
    unfold Instant.ceilSeconds IsWord at *
    omega
  simp only [ceilSecondsInWords?, Word.ofInt?_eq hmillis, Word.mod?_eq (by decide) hquotient,
    Word.div?_eq (by decide) hquotient, Option.bind_eq_bind, Option.bind_some, Word.add?, hsum,
    Word.ofInt?_eq hword]

/-! ## Rounding a bound -/

namespace Bound

variable {now : Instant} {b b' : Bound} {rounding text : Text} {c : ℤ} {d : Instant}

/-- A bound stands for an instant: itself, or the one that its date expression is rounded up to. -/
inductive StandsFor (now : Instant) : Bound → Instant → Prop
  | instant (d : Instant) : StandsFor now (.instant d) d
  | expression {text : Text} {d : Instant} (h : resolveDate now true text = .ok d) :
      StandsFor now (.expression text) d

/-- A bound is resolved to the instant that it stands for. -/
theorem resolve_eq_ok_iff : b.resolve now = .ok d ↔ b.StandsFor now d := by
  cases b with
  | instant e =>
    refine ⟨fun h => ?_, fun h => ?_⟩
    · cases h
      exact .instant d
    · cases h
      rfl
  | expression text =>
    refine ⟨.expression, fun h => ?_⟩
    cases h with
    | expression h => exact h

/-- No rounding is asked for by nothing and by zero seconds. -/
theorem isNoRounding_iff : isNoRounding text ↔ text = [] ∨ text = "0s".toList := by
  rw [isNoRounding, Bool.or_eq_true, decide_eq_true_iff, decide_eq_true_iff]

/-- The setting asks for no rounding. -/
def IsUnrounded (rounding : Option Text) : Prop :=
  rounding = none ∨ rounding = some [] ∨ rounding = some "0s".toList

/-- Without a rounding, a bound stays as it is. -/
theorem round_of_isUnrounded {rounding : Option Text} (h : IsUnrounded rounding) :
    b.round now rounding = .ok b := by
  rcases h with rfl | rfl | rfl <;> rfl

/-- The length of a duration in milliseconds is a thousand times its seconds, if that is a word. -/
theorem roundingMillis_eq (hc : bucketSeconds rounding 1 = .ok c) :
    roundingMillis rounding =
      if IsWord (1000 * c) then .ok (1000 * c) else .error (.invalidDuration rounding) := by
  rw [roundingMillis, hc, mul_comm]
  rfl

/-- The milliseconds of a duration are a word and not zero. -/
theorem exists_of_roundingMillis {unit : ℤ} (h : roundingMillis rounding = .ok unit) :
    ∃ c, bucketSeconds rounding 1 = .ok c ∧ unit = 1000 * c ∧ 0 < unit ∧ IsWord unit := by
  cases hc : bucketSeconds rounding 1 with
  | error e =>
    rw [roundingMillis, hc] at h
    cases h
  | ok c =>
    rw [roundingMillis_eq hc] at h
    split at h
    · next hword =>
      cases h
      have hpos := bucketSeconds_pos (by decide) hc
      exact ⟨c, rfl, rfl, by omega, hword⟩
    · cases h

/-- What rounding gives for an instant and a duration. -/
theorem round_eq (hon : ¬ isNoRounding rounding) (hd : b.resolve now = .ok d)
    (hc : bucketSeconds rounding 1 = .ok c) :
    b.round now (some rounding) =
      if IsWord (1000 * c) then
        match Instant.ofMillis? (d.millis / (1000 * c) * (1000 * c)) with
        | some d' => .ok (.instant d')
        | none => .error (.error (.invalidDate (decimal (d.millis / (1000 * c) * (1000 * c)))))
      else .error (.error (.invalidDuration rounding)) := by
  simp only [round, if_neg hon, hd, roundingMillis_eq hc]
  split
  · rfl
  · rfl

/-- With a bound and a duration that are resolved, rounding fails in two ways only: the milliseconds
of the duration are no word, or the multiple lies outside the range of the calendar. -/
theorem round_eq_error_iff (hon : ¬ isNoRounding rounding) (hd : b.resolve now = .ok d)
    (hc : bucketSeconds rounding 1 = .ok c) {f : Failure} :
    b.round now (some rounding) = .error f ↔
      (¬ IsWord (1000 * c) ∧ f = .error (.invalidDuration rounding)) ∨
      (IsWord (1000 * c) ∧
        (d.millis / (1000 * c) * (1000 * c) < Instant.firstMilli ∨
          Instant.lastMilli < d.millis / (1000 * c) * (1000 * c)) ∧
        f = .error (.invalidDate (decimal (d.millis / (1000 * c) * (1000 * c))))) := by
  rw [round_eq hon hd hc, ← Instant.ofMillis?_eq_none_iff]
  by_cases hword : IsWord (1000 * c)
  · rw [if_pos hword]
    cases hfloor : Instant.ofMillis? (d.millis / (1000 * c) * (1000 * c)) with
    | some d' => exact ⟨nofun, by simp [hword]⟩
    | none => simp [hword, eq_comm]
  · simp [hword, eq_comm]

/-- A rounded bound is an instant, at the last multiple of the duration that is not after it. -/
theorem exists_of_round (hon : ¬ isNoRounding rounding)
    (h : b.round now (some rounding) = .ok b') :
    ∃ c d d', b.resolve now = .ok d ∧ bucketSeconds rounding 1 = .ok c ∧ IsWord (1000 * c) ∧
      b' = .instant d' ∧ Instant.ofMillis? (d.millis / (1000 * c) * (1000 * c)) = some d' := by
  have hround := h
  rw [round, if_neg hon] at h
  obtain ⟨d, hd, h⟩ := bind_eq_ok_iff.1 h
  obtain ⟨unit, hunit, -⟩ := bind_eq_ok_iff.1 h
  cases hmillis : roundingMillis rounding with
  | error e =>
    rw [hmillis] at hunit
    cases hunit
  | ok unit =>
    obtain ⟨c, hc, rfl, -, hword⟩ := exists_of_roundingMillis hmillis
    rw [round_eq hon hd hc, if_pos hword] at hround
    split at hround
    · next d' hd' =>
      cases hround
      exact ⟨c, d, d', hd, hc, hword, rfl, hd'⟩
    · cases hround

/-- Rounding a rounded bound changes nothing, at whatever present. -/
theorem round_round {setting : Option Text} (h : b.round now setting = .ok b') (now' : Instant) :
    b'.round now' setting = .ok b' := by
  cases setting with
  | none => rfl
  | some rounding =>
    by_cases hon : isNoRounding rounding
    · rw [round, if_pos hon]
    · obtain ⟨c, d, d', -, hc, hword, rfl, hd'⟩ := exists_of_round hon h
      have hpos : 1000 * c ≠ 0 := by
        have := bucketSeconds_pos (by decide) hc
        omega
      have hfloor : d'.millis / (1000 * c) * (1000 * c) = d.millis / (1000 * c) * (1000 * c) := by
        rw [Instant.millis_of_ofMillis? hd', Int.mul_ediv_cancel _ hpos]
      rw [round_eq hon (show (Bound.instant d').resolve now' = .ok d' from rfl) hc, if_pos hword,
        hfloor, hd']

/-- The seconds of a bound are those of its instant. -/
theorem seconds_eq_ok_iff {n : ℤ} :
    b.seconds now = .ok n ↔ ∃ d, b.resolve now = .ok d ∧ n = d.ceilSeconds := by
  rw [seconds, bind_eq_ok_iff]
  refine exists_congr fun d => and_congr_right fun _ => ?_
  exact ⟨fun h => by cases h; rfl, fun h => h ▸ rfl⟩

end Bound

/-! ## Time contexts -/

/-- How the bounds of a time context lie to the two instants of a range, under a rounding. -/
structure TimeContext.Frames (ctx : TimeContext) (rounding : Option Text) (lower upper : Instant) :
    Prop where
  upper_eq : ctx.upper = ⌈(upper.millis : ℚ) / 1000⌉
  lower_eq : Bound.IsUnrounded rounding → ctx.lower = ⌈(lower.millis : ℚ) / 1000⌉
  /-- A rounded lower bound is the multiple of the duration whose interval the instant lies in. -/
  rounded : ∀ text, rounding = some text → text ≠ [] → text ≠ "0s".toList →
    ∃ c, bucketSeconds text 1 = .ok c ∧ 0 < c ∧ c ∣ ctx.lower ∧
      ctx.lower * 1000 ≤ lower.millis ∧ lower.millis < (ctx.lower + c) * 1000
  lower_le : ctx.lower ≤ ⌈(lower.millis : ℚ) / 1000⌉
  lower_le_upper : lower.millis ≤ upper.millis → ctx.lower ≤ ctx.upper

namespace TimeRange

variable {now : Instant} {range : TimeRange} {rounding : Option Text} {interval : Text}
  {factor : UInt32} {ctx : TimeContext}

/-- The bounds of a resolved range come from the rounded lower bound and the upper one. -/
theorem exists_of_resolve (h : range.resolve now rounding interval factor = .ok ctx) :
    ∃ b lower upper, range.lower.round now rounding = .ok b ∧ b.resolve now = .ok lower ∧
      range.upper.resolve now = .ok upper ∧ ctx.lower = lower.ceilSeconds ∧
      ctx.upper = upper.ceilSeconds := by
  obtain ⟨b, hb, h⟩ := bind_eq_ok_iff.1 h
  obtain ⟨lowerSeconds, hlower, h⟩ := bind_eq_ok_iff.1 h
  obtain ⟨upperSeconds, hupper, h⟩ := bind_eq_ok_iff.1 h
  obtain ⟨width, -, h⟩ := bind_eq_ok_iff.1 h
  obtain ⟨lower, hlowerDate, rfl⟩ := Bound.seconds_eq_ok_iff.1 hlower
  obtain ⟨upper, hupperDate, rfl⟩ := Bound.seconds_eq_ok_iff.1 hupper
  cases h
  exact ⟨b, lower, upper, hb, hlowerDate, hupperDate, rfl, rfl⟩

/-- The seconds of a multiple of a duration are that multiple. -/
theorem ceilSeconds_of_multiple {c k : ℤ} {d : Instant} (h : d.millis = k * (1000 * c)) :
    d.ceilSeconds = k * c := by
  rw [Instant.ceilSeconds, h, mul_left_comm]
  omega

/-- The bounds of a resolved time context frame the instants of its range. -/
theorem frames_of_resolve (h : range.resolve now rounding interval factor = .ok ctx) :
    ∃ lower upper, range.lower.resolve now = .ok lower ∧ range.upper.resolve now = .ok upper ∧
      ctx.Frames rounding lower upper := by
  obtain ⟨b, lower', upper, hround, hlower', hupper, hctxLower, hctxUpper⟩ := exists_of_resolve h
  have hle {lower : Instant} (hl : ctx.lower * 1000 ≤ lower.millis + 999) :
      ctx.lower ≤ lower.ceilSeconds := by
    unfold Instant.ceilSeconds
    omega
  have hmono {lower : Instant} (hl : ctx.lower ≤ lower.ceilSeconds)
      (hu : lower.millis ≤ upper.millis) : ctx.lower ≤ ctx.upper := by
    rw [hctxUpper]
    unfold Instant.ceilSeconds at *
    omega
  by_cases hoff : Bound.IsUnrounded rounding
  · rw [Bound.round_of_isUnrounded hoff] at hround
    cases hround
    have hlower : ctx.lower ≤ lower'.ceilSeconds := hctxLower.le
    refine ⟨lower', upper, hlower', hupper, ?_, ?_, ?_, ?_, hmono hlower⟩
    · rw [hctxUpper, Instant.ceilSeconds_eq_ceil]
    · exact fun _ => by rw [hctxLower, Instant.ceilSeconds_eq_ceil]
    · rintro text rfl hne hzero
      rcases hoff with hoff | hoff | hoff
      · cases hoff
      · exact absurd (Option.some.inj hoff) hne
      · exact absurd (Option.some.inj hoff) hzero
    · rw [← Instant.ceilSeconds_eq_ceil]
      exact hlower
  · obtain ⟨text, rfl⟩ : ∃ text, rounding = some text :=
      Option.ne_none_iff_exists'.1 fun hnone => hoff (.inl hnone)
    have hon : ¬ Bound.isNoRounding text := by
      rw [Bound.isNoRounding_iff]
      rintro (rfl | rfl)
      · exact hoff (.inr (.inl rfl))
      · exact hoff (.inr (.inr rfl))
    obtain ⟨c, d, d', hd, hc, -, rfl, hfloor⟩ := Bound.exists_of_round hon hround
    cases hlower'
    have hpos := bucketSeconds_pos (by decide) hc
    have hlower : ctx.lower = d.millis / (1000 * c) * c :=
      hctxLower.trans (ceilSeconds_of_multiple (Instant.millis_of_ofMillis? hfloor))
    have hbelow := Int.ediv_mul_le d.millis (show 1000 * c ≠ 0 by omega)
    have habove := Int.lt_ediv_add_one_mul_self d.millis (show 0 < 1000 * c by omega)
    rw [mul_left_comm, ← hlower] at hbelow
    rw [add_mul, one_mul, mul_left_comm, ← hlower] at habove
    have hceil : ctx.lower ≤ d.ceilSeconds := hle (by omega)
    refine ⟨d, upper, hd, hupper, ?_, fun h => absurd h hoff, ?_, ?_, hmono hceil⟩
    · rw [hctxUpper, Instant.ceilSeconds_eq_ceil]
    · rintro _ ⟨⟩ - -
      exact ⟨c, hc, hpos, hlower ▸ Dvd.intro_left _ rfl, by omega, by omega⟩
    · rw [← Instant.ceilSeconds_eq_ceil]
      exact hceil

/-- The bounds of a resolved time context frame the instants that the bounds of the range stand for,
and rounding a rounded bound changes nothing. Rounding and the way to seconds stay within words and
divide by no zero; with a bound and a duration that are resolved, rounding fails in two ways
only. -/
theorem resolve_frames (now : Instant) (range : TimeRange) (rounding : Option Text)
    (interval : Text) (factor : UInt32) :
    (∀ ctx, range.resolve now rounding interval factor = .ok ctx →
      ∃ lower upper, range.lower.StandsFor now lower ∧ range.upper.StandsFor now upper ∧
        ctx.Frames rounding lower upper) ∧
    (∀ b b' : Bound, b.round now rounding = .ok b' →
      ∀ now', b'.round now' rounding = .ok b') ∧
    (∀ d : Instant, ceilSecondsInWords? d.millis = some d.ceilSeconds ∧
      ∀ text unit, Bound.roundingMillis text = .ok unit →
        unit ≠ 0 ∧ floorInWords? d.millis unit = some (d.millis / unit * unit)) ∧
    ∀ (b : Bound) (d : Instant) (text : Text) (c : ℤ), b.StandsFor now d → text ≠ [] →
      text ≠ "0s".toList → bucketSeconds text 1 = .ok c → ∀ f,
        b.round now (some text) = .error f ↔
          (¬ IsWord (1000 * c) ∧ f = .error (.invalidDuration text)) ∨
          (IsWord (1000 * c) ∧
            (d.millis / (1000 * c) * (1000 * c) < Instant.firstMilli ∨
              Instant.lastMilli < d.millis / (1000 * c) * (1000 * c)) ∧
            f = .error (.invalidDate (decimal (d.millis / (1000 * c) * (1000 * c))))) := by
  refine ⟨fun ctx h => ?_, fun b b' h now' => Bound.round_round h now',
    fun d => ⟨ceilSecondsInWords?_eq d, fun text unit hunit => ?_⟩, ?_⟩
  · obtain ⟨lower, upper, hlower, hupper, hframes⟩ := frames_of_resolve h
    exact ⟨lower, upper, Bound.resolve_eq_ok_iff.1 hlower, Bound.resolve_eq_ok_iff.1 hupper,
      hframes⟩
  · obtain ⟨-, -, -, hpos, hword⟩ := Bound.exists_of_roundingMillis hunit
    exact ⟨hpos.ne', floorInWords?_eq d hpos hword⟩
  · intro b d text c hd hne hzero hc f
    have hon : ¬ Bound.isNoRounding text := by
      rw [Bound.isNoRounding_iff]
      exact not_or.2 ⟨hne, hzero⟩
    exact Bound.round_eq_error_iff hon (Bound.resolve_eq_ok_iff.2 hd) hc

/-- A range from the end of the second before the present to the present. -/
def fromBeforeEpoch : TimeRange where
  lower := .expression "now-1s/s".toList
  upper := .expression "now".toList
  upperIsNow := true

/-- A duration whose seconds are a word but whose milliseconds are none. -/
def oversizedRounding : Text := "10000000000000000s".toList

/-- A millisecond after the epoch, the lower bound is rounded up to a millisecond before it, and
then down to a multiple of seven seconds. -/
theorem resolve_frames_fromBeforeEpoch :
    resolveDate { seconds := 0, nanos := 1000000 } true "now-1s/s".toList =
      .ok { seconds := -1, nanos := 999000000 } ∧
    (∃ lower upper : Instant, lower.millis = -1 ∧ upper.millis = 1 ∧
      TimeContext.Frames ⟨-7, 1, 60, true⟩ (some "7s".toList) lower upper) ∧
    fromBeforeEpoch.lower.round { seconds := 0, nanos := 1000000 } (some oversizedRounding) =
      .error (.error (.invalidDuration oversizedRounding)) := by
  have hdate : resolveDate { seconds := 0, nanos := 1000000 } true "now-1s/s".toList =
      .ok { seconds := -1, nanos := 999000000 } := by decide +kernel
  have hnow : resolveDate { seconds := 0, nanos := 1000000 } true "now".toList =
      .ok { seconds := 0, nanos := 1000000 } := by decide +kernel
  have hresolve : fromBeforeEpoch.resolve { seconds := 0, nanos := 1000000 } (some "7s".toList)
      "30s".toList 2 = .ok ⟨-7, 1, 60, true⟩ := by decide +kernel
  have hoversized : bucketSeconds oversizedRounding 1 = .ok 10000000000000000 := by decide +kernel
  obtain ⟨hframes, -, -, hfail⟩ := resolve_frames { seconds := 0, nanos := 1000000 }
    fromBeforeEpoch (some "7s".toList) "30s".toList 2
  obtain ⟨lower, upper, hlower, hupper, h⟩ := hframes _ hresolve
  refine ⟨hdate, ⟨lower, upper, ?_, ?_, h⟩, ?_⟩
  · cases hlower with
    | expression hlower =>
      cases hdate.symm.trans hlower
      decide
  · cases hupper with
    | expression hupper =>
      cases hnow.symm.trans hupper
      decide
  · exact (hfail fromBeforeEpoch.lower _ oversizedRounding _ (.expression hdate) (by decide)
      (by decide) hoversized _).2 (.inl ⟨by decide, rfl⟩)

end TimeRange

end SeriesQuery
