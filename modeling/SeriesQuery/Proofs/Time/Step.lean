import SeriesQuery.Proofs.Text.Numeral
import SeriesQuery.Proofs.Time.Month
import SeriesQuery.Time.Expression

/-!
# What a step does

A step of a date expression is told here by the clock and the calendar alone. A shift goes some
whole seconds on (`Instant.LaterBySeconds`), or some months to the same day
(`Instant.LaterByMonths`), by the amount it is written with (`DateStep.Amount`). A rounding goes to
the first second of the unit that the instant lies in, or up to its last millisecond.
`DateStep.Leads` puts this together.

Two steps have neither a result nor an error (`DateStep.Aborts`): a shift by seconds, minutes,
hours, days or weeks whose seconds fit a word but are more than a duration can have, and a rounding
to a week whose Monday is before the first date. Rounding up ends the run where rounding down does,
as the shift by one unit behind it is short (`Instant.endOf_eq_abort_iff`).

Steps are applied so (`DateStep.apply_eq_ok_iff`, `DateStep.apply_eq_abort_iff`), and every other
step has a result that is not representable.
-/

namespace SeriesQuery

open Text

/-! ## Shifts -/

/-- The unit has the same length wherever it lies: it is no month and no year. -/
def DateUnit.IsFixed (unit : DateUnit) : Prop := unit ≠ .month ∧ unit ≠ .year

instance (unit : DateUnit) : Decidable unit.IsFixed := inferInstanceAs (Decidable (_ ∧ _))

/-- The units of fixed length have that of the unit that any second lies in. -/
theorem DateUnit.fixedLength?_eq_some_iff {unit : DateUnit} {l : ℤ} (s : ℤ) :
    unit.fixedLength? = some l ↔ unit.IsFixed ∧ unit.length s = l := by
  cases unit with
  | second | minute | hour | day | week =>
    exact ⟨fun h => ⟨by decide, length_of_fixedLength? _ s h⟩, fun h => congrArg some h.2⟩
  | month => exact ⟨nofun, fun h => absurd rfl h.1.1⟩
  | year => exact ⟨nofun, fun h => absurd rfl h.1.2⟩

namespace Instant

variable {d e : Instant} {unit : DateUnit} {count amount : ℤ}

/-- An instant is so many seconds later than another, or earlier for a negative count. Inside a leap
second, a count onward starts in the second before it, and a count back in the second after it. -/
inductive LaterBySeconds (d : Instant) (count : ℤ) (e : Instant) : Prop
  | outside (hleap : ¬ d.InLeapSecond) (hseconds : e.seconds = d.seconds + count)
      (hnanos : e.nanos = d.nanos)
  | stay (hleap : d.InLeapSecond) (hcount : count = 0) (he : e = d)
  | onward (hleap : d.InLeapSecond) (hcount : 0 < count) (hseconds : e.seconds = d.seconds + count)
      (hnanos : e.nanos + nanosPerSecond = d.nanos)
  | back (hleap : d.InLeapSecond) (hcount : count < 0)
      (hseconds : e.seconds = d.seconds + 1 + count) (hnanos : e.nanos + nanosPerSecond = d.nanos)

/-- An instant is so many months later than another, or earlier for a negative count: at the same
time of day, and on the same day of its month or on the last one of a month that is shorter. -/
structure LaterByMonths (d : Instant) (count : ℤ) (e : Instant) : Prop where
  month : e.date.monthIndex = d.date.monthIndex + count
  day : e.date.day = min d.date.day (monthLength e.date.year e.date.month)
  secondOfDay : e.secondOfDay = d.secondOfDay
  nanos : e.nanos = d.nanos

/-- Seconds are added so. -/
theorem addSeconds?_eq_some_iff : d.addSeconds? count = some e ↔ d.LaterBySeconds count e := by
  unfold addSeconds?
  by_cases hleap : d.InLeapSecond
  · have hnanos : e.nanos = d.nanos - nanosPerSecond ↔ e.nanos + nanosPerSecond = d.nanos := by
      unfold InLeapSecond at hleap
      omega
    rw [if_pos hleap]
    rcases lt_trichotomy count 0 with hcount | rfl | hcount
    · rw [if_neg hcount.ne, if_pos hcount, ofSeconds?_eq_some_iff, hnanos]
      refine ⟨fun ⟨hseconds, hnanos⟩ => .back hleap hcount (by omega) hnanos, fun h => ?_⟩
      cases h with
      | outside hout => exact absurd hleap hout
      | back _ _ hseconds hnanos => exact ⟨by omega, hnanos⟩
      | stay _ h | onward _ h => omega
    · rw [if_pos rfl, Option.some.injEq]
      refine ⟨fun he => .stay hleap rfl he.symm, fun h => ?_⟩
      cases h with
      | outside hout => exact absurd hleap hout
      | stay _ _ he => exact he.symm
      | onward _ h | back _ h => omega
    · rw [if_neg hcount.ne', if_neg hcount.not_gt, add_zero, ofSeconds?_eq_some_iff, hnanos]
      refine ⟨fun ⟨hseconds, hnanos⟩ => .onward hleap hcount hseconds hnanos, fun h => ?_⟩
      cases h with
      | outside hout => exact absurd hleap hout
      | onward _ _ hseconds hnanos => exact ⟨hseconds, hnanos⟩
      | stay _ h | back _ h => omega
  · rw [if_neg hleap, ofSeconds?_eq_some_iff]
    refine ⟨fun ⟨hseconds, hnanos⟩ => .outside hleap hseconds hnanos, fun h => ?_⟩
    cases h with
    | outside _ hseconds hnanos => exact ⟨hseconds, hnanos⟩
    | stay h | onward h | back h => exact absurd h hleap

/-- No two instants are further apart than a duration can be long. -/
theorem LaterBySeconds.natAbs_le (h : d.LaterBySeconds count e) : count.natAbs ≤ maxShift := by
  obtain ⟨hlower, hupper⟩ := d.seconds_mem
  obtain ⟨hlower', hupper'⟩ := e.seconds_mem
  unfold firstSecond lastSecond at *
  unfold maxShift
  cases h with
  | outside _ hseconds | onward _ _ hseconds | back _ _ hseconds => omega
  | stay _ hcount => omega

/-- A shift in a unit of fixed length leads as many seconds on. -/
theorem shift_eq_ok_iff_of_isFixed (hunit : unit.IsFixed) :
    d.shift amount unit = .ok e ↔ d.LaterBySeconds (amount * unit.length d.seconds) e := by
  have hl := (unit.fixedLength?_eq_some_iff d.seconds).2 ⟨hunit, rfl⟩
  constructor
  · intro h
    exact addSeconds?_eq_some_iff.1 (addSeconds?_of_shift hl h)
  · intro h
    rw [shift_of_natAbs_le hl h.natAbs_le, representable_eq_ok_iff]
    exact addSeconds?_eq_some_iff.2 h

/-- A shift by months leads as many months on. -/
theorem shift_month_eq_ok_iff_laterByMonths :
    d.shift count .month = .ok e ↔ d.LaterByMonths count e := by
  rw [shift_month_eq_ok_iff]
  constructor
  · rintro ⟨hdate, hsecond, hnanos⟩
    refine ⟨?_, ?_, hsecond, hnanos⟩
    · rw [hdate]
      exact Date.monthIndex_ofMonthIndex ..
    · rw [hdate]
      exact Date.day_ofMonthIndex ..
  · rintro ⟨hmonth, hday, hsecond, hnanos⟩
    exact ⟨e.isValid_date.eq_ofMonthIndex hmonth hday, hsecond, hnanos⟩

end Instant

/-! ## Steps with a result -/

namespace DateStep

variable {d e : Instant} {roundUp : Bool} {step : DateStep} {sign : Sign} {digits : Text} {n : ℤ}

/-- The signed amount that a shift is written with: what its digits say, or one without digits, and
as much back behind a minus. -/
inductive Amount : Sign → Text → ℤ → Prop
  | one : Amount .plus [] 1
  | oneBack : Amount .minus [] (-1)
  | number {digits : Text} (hne : digits ≠ []) :
      Amount .plus digits (Nat.ofDigitChars 10 digits 0)
  | numberBack {digits : Text} (hne : digits ≠ []) :
      Amount .minus digits (-Nat.ofDigitChars 10 digits 0)

/-- Amounts are read so. -/
theorem amount_iff : Amount sign digits n ↔ n = amount sign digits := by
  constructor
  · intro h
    cases h with
    | one | oneBack => rfl
    | number hne | numberBack hne => simp only [amount, if_neg hne, digitsValue_eq]
  · rintro rfl
    by_cases hne : digits = []
    · subst hne
      cases sign with
      | plus => exact .one
      | minus => exact .oneBack
    · cases sign with
      | plus =>
        simp only [amount, if_neg hne, digitsValue_eq]
        exact .number hne
      | minus =>
        simp only [amount, if_neg hne, digitsValue_eq]
        exact .numberBack hne

/-- What a step leads to at an instant. A rounding leads to the start of the unit that the instant
lies in, or to its end when dates are rounded up. -/
inductive Leads (roundUp : Bool) (d : Instant) : DateStep → Instant → Prop
  /-- A shift by seconds, minutes, hours, days or weeks goes on by as many seconds. -/
  | seconds {sign : Sign} {digits : Text} {unit : DateUnit} {n : ℤ} {e : Instant}
      (hamount : Amount sign digits n) (hunit : unit.IsFixed)
      (hlater : d.LaterBySeconds (n * unit.length d.seconds) e) :
      Leads roundUp d (.shift sign digits unit) e
  | months {sign : Sign} {digits : Text} {n : ℤ} {e : Instant} (hamount : Amount sign digits n)
      (hlater : d.LaterByMonths n e) : Leads roundUp d (.shift sign digits .month) e
  /-- A year is twelve months. -/
  | years {sign : Sign} {digits : Text} {n : ℤ} {e : Instant} (hamount : Amount sign digits n)
      (hlater : d.LaterByMonths (12 * n) e) : Leads roundUp d (.shift sign digits .year) e
  | down {unit : DateUnit} {e : Instant} (hdirection : roundUp = false)
      (hseconds : e.seconds = unit.first d.seconds) (hnanos : e.nanos = 0) :
      Leads roundUp d (.round unit) e
  /-- The end of a unit is its last millisecond. There is one if both the unit and the next one
  begin at representable instants. -/
  | up {unit : DateUnit} {e : Instant} (hdirection : roundUp = true)
      (hfirst : firstSecond ≤ unit.first d.seconds)
      (hnext : unit.first d.seconds + unit.length d.seconds ≤ lastSecond)
      (hseconds : e.seconds + 1 = unit.first d.seconds + unit.length d.seconds)
      (hnanos : e.nanos = 999000000) : Leads roundUp d (.round unit) e

/-- A shift leads where its amount and unit lead. -/
theorem shift_leads_iff {unit : DateUnit} :
    Leads roundUp d (.shift sign digits unit) e ↔ d.shift (amount sign digits) unit = .ok e := by
  have hamount : Amount sign digits (amount sign digits) := amount_iff.2 rfl
  constructor
  · intro h
    cases h with
    | seconds h hunit hlater =>
      rw [← amount_iff.1 h]
      exact (Instant.shift_eq_ok_iff_of_isFixed hunit).2 hlater
    | months h hlater =>
      rw [← amount_iff.1 h]
      exact Instant.shift_month_eq_ok_iff_laterByMonths.2 hlater
    | years h hlater =>
      rw [← amount_iff.1 h, Instant.shift_year_eq]
      exact Instant.shift_month_eq_ok_iff_laterByMonths.2 hlater
  · intro h
    by_cases hunit : unit.IsFixed
    · exact .seconds hamount hunit ((Instant.shift_eq_ok_iff_of_isFixed hunit).1 h)
    · rcases not_and_or.1 hunit with hmonth | hyear
      · obtain rfl := not_not.1 hmonth
        exact .months hamount (Instant.shift_month_eq_ok_iff_laterByMonths.1 h)
      · obtain rfl := not_not.1 hyear
        rw [Instant.shift_year_eq] at h
        exact .years hamount (Instant.shift_month_eq_ok_iff_laterByMonths.1 h)

/-- Steps are applied so. -/
theorem apply_eq_ok_iff : step.apply roundUp d = .ok e ↔ step.Leads roundUp d e := by
  cases step with
  | shift sign digits unit => exact shift_leads_iff.symm
  | round unit =>
    cases roundUp with
    | false =>
      refine Instant.startOf_eq_ok_iff.trans
        ⟨fun ⟨hseconds, hnanos⟩ => .down rfl hseconds hnanos, fun h => ?_⟩
      cases h with
      | down _ hseconds hnanos => exact ⟨hseconds, hnanos⟩
      | up h => cases h
    | true =>
      refine Instant.endOf_eq_ok_iff.trans
        ⟨fun ⟨hfirst, hnext, hseconds, hnanos⟩ => .up rfl hfirst hnext hseconds hnanos, fun h => ?_⟩
      cases h with
      | down h => cases h
      | up _ hfirst hnext hseconds hnanos => exact ⟨hfirst, hnext, hseconds, hnanos⟩

end DateStep

/-! ## Steps that end the run -/

namespace Instant

variable {d : Instant} {unit : DateUnit}

/-- What is or is not representable does not end the run. -/
theorem representable_ne_abort (o : Option Instant) : representable o ≠ .error .abort := by
  cases o <;> nofun

/-- The day of the Monday in the week of an instant. -/
def monday (d : Instant) : ℤ := d.dayNumber - daysSinceMonday d.dayNumber

/-- A shift ends the run exactly if its seconds fit a word but no duration. -/
theorem shift_eq_abort_iff {amount : ℤ} :
    d.shift amount unit = .error .abort ↔
      ∃ l, unit.fixedLength? = some l ∧ IsWord (amount * l) ∧ maxShift < (amount * l).natAbs := by
  unfold shift
  cases unit.fixedLength? with
  | none => exact ⟨fun h => absurd h (representable_ne_abort _), nofun⟩
  | some l =>
    dsimp only
    constructor
    · intro h
      split at h
      · cases h
      · next hword =>
        split at h
        · next hlong => exact ⟨l, rfl, not_not.1 hword, hlong⟩
        · exact absurd h (representable_ne_abort _)
    · rintro ⟨_, ⟨⟩, hword, hlong⟩
      rw [if_neg (not_not.2 hword), if_pos hlong]

/-- No unit is longer than a duration can be. -/
theorem shift_one_ne_abort (d : Instant) (unit : DateUnit) : d.shift 1 unit ≠ .error .abort := by
  intro h
  obtain ⟨l, hl, -, hlong⟩ := shift_eq_abort_iff.1 h
  unfold maxShift at hlong
  cases unit <;> cases hl <;> omega

/-- Rounding down ends the run exactly in a week that begins before the first date. -/
theorem startOf_eq_abort_iff :
    d.startOf unit = .error .abort ↔
      unit = .week ∧ d.monday < Date.dayNumber ⟨-262143, 1, 1⟩ := by
  cases unit with
  | second | minute | hour | day | month | year =>
    exact ⟨fun h => absurd h (representable_ne_abort _), nofun⟩
  | week =>
    have hnone : ofSecond? (DateUnit.week.first d.seconds) = none ↔ _ :=
      ofSeconds?_eq_none_iff epoch_nanos_lt
    have hle := DateUnit.week.first_le d.seconds
    have hlast := d.seconds_mem.2
    have hfirst : DateUnit.week.first d.seconds = d.monday * secondsPerDay := rfl
    have hbefore : ofSecond? (DateUnit.week.first d.seconds) = none ↔
        d.monday < Date.dayNumber ⟨-262143, 1, 1⟩ := by
      refine hnone.trans ?_
      rw [firstSecond_eq, hfirst]
      unfold secondsPerDay at *
      omega
    rw [startOf_week, ← hbefore]
    cases ofSecond? (DateUnit.week.first d.seconds) with
    | none => exact ⟨fun _ => ⟨rfl, rfl⟩, fun _ => rfl⟩
    | some monday => exact ⟨nofun, nofun⟩

/-- Rounding up ends the run where rounding down does. -/
theorem endOf_eq_abort_iff : d.endOf unit = .error .abort ↔ d.startOf unit = .error .abort := by
  constructor
  · intro h
    rw [endOf] at h
    rcases bind_eq_error_iff.1 h with hstart | ⟨start, -, h⟩
    · exact hstart
    · rcases bind_eq_error_iff.1 h with hnext | ⟨next, -, h⟩
      · exact absurd hnext (shift_one_ne_abort start unit)
      · exact absurd h (representable_ne_abort _)
  · intro h
    rw [endOf, h]
    rfl

end Instant

namespace DateStep

variable {d : Instant} {roundUp : Bool} {step : DateStep}

/-- The step ends the run at an instant: a shift in a unit of fixed length whose seconds fit a
signed word of 64 bits, but have more milliseconds than such a word counts, or a rounding to a week
whose Monday is before the first date. -/
inductive Aborts (d : Instant) : DateStep → Prop
  | shift {sign : Sign} {digits : Text} {unit : DateUnit} {n : ℤ} (hamount : Amount sign digits n)
      (hunit : unit.IsFixed) (hword : IsWord (n * unit.length d.seconds))
      (hlong : 9223372036854775807 / 1000 < |n * unit.length d.seconds|) :
      Aborts d (.shift sign digits unit)
  | round (hmonday : d.monday < Date.dayNumber ⟨-262143, 1, 1⟩) : Aborts d (.round .week)

/-- In either direction of rounding these steps end the run, and no others. -/
theorem apply_eq_abort_iff : step.apply roundUp d = .error .abort ↔ step.Aborts d := by
  cases step with
  | shift sign digits unit =>
    rw [apply, Instant.shift_eq_abort_iff]
    unfold Instant.maxShift
    constructor
    · rintro ⟨l, hl, hword, hlong⟩
      obtain ⟨hunit, rfl⟩ := (unit.fixedLength?_eq_some_iff d.seconds).1 hl
      exact .shift (amount_iff.2 rfl) hunit hword (by rw [Int.abs_eq_natAbs]; omega)
    · rintro ⟨hamount, hunit, hword, hlong⟩
      obtain rfl := amount_iff.1 hamount
      rw [Int.abs_eq_natAbs] at hlong
      have hl := (unit.fixedLength?_eq_some_iff d.seconds).2 ⟨hunit, rfl⟩
      exact ⟨_, hl, hword, by omega⟩
  | round unit =>
    have hround : apply roundUp (.round unit) d = .error .abort ↔
        d.startOf unit = .error .abort := by
      cases roundUp with
      | false => exact Iff.rfl
      | true => exact Instant.endOf_eq_abort_iff
    rw [hround, Instant.startOf_eq_abort_iff]
    constructor
    · rintro ⟨rfl, hmonday⟩
      exact .round hmonday
    · intro h
      cases h with
      | round hmonday => exact ⟨rfl, hmonday⟩

/-- A step that leads nowhere and does not end the run has a result that is not representable. -/
theorem apply_eq_unrepresentable_iff :
    step.apply roundUp d = .error .unrepresentable ↔
      (∀ e, ¬ step.Leads roundUp d e) ∧ ¬ step.Aborts d := by
  have habort : step.apply roundUp d = .error .abort ↔ step.Aborts d := apply_eq_abort_iff
  rw [← habort]
  simp only [← apply_eq_ok_iff]
  cases step.apply roundUp d with
  | ok e => simp
  | error fault => cases fault <;> simp

end DateStep

end SeriesQuery
