import SeriesQuery.Proofs.Time.Unit

/-!
# Shifts by months

Months are counted from the first of the year 0 on, and no two months have one number
(`Date.IsValid.month_eq_of_monthIndex_eq`). A shift by months adds to the number of the month and
keeps the day, or takes the last day of a month that is shorter (`Instant.addMonths?_eq_some_iff`).
It has a result exactly if the calendar reaches as far (`Instant.exists_addMonths?_iff`), and then
the count of months fits 32 bits (`Instant.natAbs_lt_of_isRepresentable`).

`Instant.shift_month` puts this together, also for years, and for a shift there and back.
-/

namespace SeriesQuery

namespace Date

variable {d d' : Date} {index : ℤ} {day : ℕ}

/-! ## Counting months -/

/-- A date that is counted to has that count. -/
@[simp]
theorem monthIndex_ofMonthIndex (index : ℤ) (day : ℕ) :
    (ofMonthIndex index day).monthIndex = index := by
  dsimp only [ofMonthIndex, monthIndex]
  omega

/-- The day of a date that is counted to is kept, or the last one of a month that is shorter. -/
theorem day_ofMonthIndex (index : ℤ) (day : ℕ) :
    (ofMonthIndex index day).day =
      min day (monthLength (ofMonthIndex index day).year (ofMonthIndex index day).month) := rfl

/-- The date that an index counts to is one of the calendar. -/
theorem isValid_ofMonthIndex (index : ℤ) (hday : 1 ≤ day) : (ofMonthIndex index day).IsValid := by
  have hlength := one_le_monthLength (ofMonthIndex index day).year (ofMonthIndex index day).month
  refine ⟨Nat.le_add_left .., ?_, ?_, ?_⟩
  · dsimp only [ofMonthIndex]
    omega
  · rw [day_ofMonthIndex]
    exact le_min hday hlength
  · rw [day_ofMonthIndex]
    exact min_le_right ..

/-- Dates in months of the same number are in the same month. -/
theorem IsValid.month_eq_of_monthIndex_eq (h : d.IsValid) (h' : d'.IsValid)
    (he : d.monthIndex = d'.monthIndex) : d.year = d'.year ∧ d.month = d'.month := by
  obtain ⟨hmonth, hmonth', -, -⟩ := h
  obtain ⟨hmonth₁, hmonth₁', -, -⟩ := h'
  unfold monthIndex at he
  omega

/-- The date that an index counts to is the only one of its month with that day, or with the last
one of a month that is shorter. -/
theorem IsValid.eq_ofMonthIndex (h : d.IsValid) (hindex : d.monthIndex = index)
    (hday : d.day = min day (monthLength d.year d.month)) : d = ofMonthIndex index day := by
  obtain ⟨hmonth, hmonth', -, -⟩ := h
  obtain ⟨year, month, dayOfMonth⟩ := d
  dsimp only [monthIndex] at *
  have hyear : index / 12 = year := by omega
  have hmonth : (index % 12).toNat + 1 = month := by omega
  rw [ofMonthIndex, hyear, hmonth, ← hday]

/-! ## The range of the calendar -/

/-- Whether instants of the date are representable. -/
def IsRepresentable (d : Date) : Prop := -262143 ≤ d.year ∧ d.year ≤ 262142

/-- A date of the calendar is in range exactly if its days are. -/
theorem IsValid.isRepresentable_iff (h : d.IsValid) {second : ℤ} (hsecond : 0 ≤ second)
    (hsecond' : second < Instant.secondsPerDay) :
    d.IsRepresentable ↔ firstSecond ≤ d.dayNumber * Instant.secondsPerDay + second ∧
      d.dayNumber * Instant.secondsPerDay + second ≤ lastSecond := by
  obtain ⟨hfirst, hnext⟩ := h.dayNumber_mem
  rw [Instant.firstSecond_eq, Instant.lastSecond_eq, dayNumber_firstOfYear, dayNumber_firstOfYear]
  unfold IsRepresentable Instant.secondsPerDay at *
  constructor
  · rintro ⟨hlower, hupper⟩
    have hlower := firstDayOfYear_mono hlower
    have hupper : firstDayOfYear (d.year + 1) ≤ firstDayOfYear 262143 :=
      firstDayOfYear_mono (by omega)
    omega
  · rintro ⟨hlower, hupper⟩
    by_contra hyear
    rcases not_and_or.1 hyear with hyear | hyear
    · have := firstDayOfYear_mono (show d.year + 1 ≤ -262143 by omega)
      omega
    · have := firstDayOfYear_mono (show 262143 ≤ d.year by omega)
      omega

end Date

namespace Instant

variable {d d' d'' : Instant} {count : ℤ}

/-- The date of an instant is one of the calendar. -/
theorem isValid_date (d : Instant) : d.date.IsValid := Date.isValid_ofDayNumber d.dayNumber

/-- A time of day is less than a day. -/
theorem secondOfDay_mem (d : Instant) : 0 ≤ d.secondOfDay ∧ d.secondOfDay < secondsPerDay := by
  unfold secondOfDay secondsPerDay
  omega

/-- The date of an instant is representable. -/
theorem isRepresentable_date (d : Instant) : d.date.IsRepresentable := by
  obtain ⟨hsecond, hsecond'⟩ := d.secondOfDay_mem
  rw [d.isValid_date.isRepresentable_iff hsecond hsecond',
    ← (seconds_eq_iff d.isValid_date hsecond hsecond').2 ⟨rfl, rfl⟩]
  exact d.seconds_mem

/-! ## Shifts -/

/-- The date some months from that of an instant. -/
def monthsLater (d : Instant) (count : ℤ) : Date :=
  .ofMonthIndex (d.date.monthIndex + count) d.date.day

/-- A date some months later is one of the calendar. -/
theorem isValid_monthsLater (d : Instant) (count : ℤ) : (d.monthsLater count).IsValid :=
  Date.isValid_ofMonthIndex _ d.isValid_date.2.2.1

/-- A shift by months leads to that date, at the same time of day. -/
theorem addMonths?_eq_some_iff :
    d.addMonths? count = some d' ↔
      d'.date = d.monthsLater count ∧ d'.secondOfDay = d.secondOfDay ∧ d'.nanos = d.nanos := by
  obtain ⟨hsecond, hsecond'⟩ := d.secondOfDay_mem
  rw [addMonths?, ofSeconds?_eq_some_iff]
  change d'.seconds = (d.monthsLater count).dayNumber * _ + _ ∧ _ ↔ _
  rw [seconds_eq_iff (d.isValid_monthsLater count) hsecond hsecond', and_assoc]

/-- A shift by months leads somewhere exactly if its date is representable. -/
theorem exists_addMonths?_iff :
    (∃ d', d.addMonths? count = some d') ↔ (d.monthsLater count).IsRepresentable := by
  obtain ⟨hsecond, hsecond'⟩ := d.secondOfDay_mem
  constructor
  · rintro ⟨d', h⟩
    rw [← (addMonths?_eq_some_iff.1 h).1]
    exact d'.isRepresentable_date
  · intro h
    rw [(d.isValid_monthsLater count).isRepresentable_iff hsecond hsecond'] at h
    exact ⟨⟨_, d.nanos, h, d.nanos_lt⟩, ofSeconds?_eq_some_iff.2 ⟨rfl, rfl⟩⟩

/-- The calendar has fewer months than 32 bits can count. -/
theorem natAbs_lt_of_isRepresentable (h : (d.monthsLater count).IsRepresentable) :
    count.natAbs < 2 ^ 32 := by
  have hindex := Date.monthIndex_ofMonthIndex (d.date.monthIndex + count) d.date.day
  obtain ⟨hmonth, hmonth', -, -⟩ := d.isValid_date
  obtain ⟨hmonth₁, hmonth₁', -, -⟩ := d.isValid_monthsLater count
  obtain ⟨hlower, hupper⟩ := d.isRepresentable_date
  obtain ⟨hlower', hupper'⟩ := h
  unfold monthsLater Date.monthIndex at *
  omega

theorem shift_month_eq (d : Instant) (count : ℤ) :
    d.shift count .month = representable (d.addMonths? count) := rfl

/-- A shift by years is one by twelve times as many months. -/
theorem shift_year_eq (d : Instant) (count : ℤ) :
    d.shift count .year = d.shift (12 * count) .month := rfl

/-- A shift by months leads to the date it counts to, at the same time of day. -/
theorem shift_month_eq_ok_iff :
    d.shift count .month = .ok d' ↔
      d'.date = d.monthsLater count ∧ d'.secondOfDay = d.secondOfDay ∧ d'.nanos = d.nanos := by
  rw [shift_month_eq, representable_eq_ok_iff, addMonths?_eq_some_iff]

/-- A shift by months past the range of the calendar leads nowhere. -/
theorem shift_month_eq_error (h : ¬ (d.monthsLater count).IsRepresentable) :
    d.shift count .month = .error .unrepresentable := by
  rw [shift_month_eq]
  cases hd : d.addMonths? count with
  | none => rfl
  | some d' => exact absurd (exists_addMonths?_iff.1 ⟨d', hd⟩) h

/-- There and back again, a shift leads into the month it started from. The day is kept exactly if
the month between has it. -/
theorem date_of_shift_month_back (h : d.shift count .month = .ok d')
    (h' : d'.shift (-count) .month = .ok d'') :
    d''.date.year = d.date.year ∧ d''.date.month = d.date.month ∧ d''.date.day ≤ d.date.day ∧
      (d''.date.day = d.date.day ↔ d.date.day ≤ monthLength d'.date.year d'.date.month) := by
  obtain ⟨hdate, -⟩ := shift_month_eq_ok_iff.1 h
  obtain ⟨hdate', -⟩ := shift_month_eq_ok_iff.1 h'
  have hindex : d''.date.monthIndex = d.date.monthIndex := by
    rw [hdate', monthsLater, Date.monthIndex_ofMonthIndex, hdate, monthsLater,
      Date.monthIndex_ofMonthIndex]
    omega
  obtain ⟨hyear, hmonth⟩ := d''.isValid_date.month_eq_of_monthIndex_eq d.isValid_date hindex
  have hday : d'.date.day = min d.date.day (monthLength d'.date.year d'.date.month) := by
    rw [hdate]
    exact Date.day_ofMonthIndex ..
  have hday' : d''.date.day = min d'.date.day (monthLength d.date.year d.date.month) := by
    rw [← hyear, ← hmonth, hdate']
    exact Date.day_ofMonthIndex ..
  obtain ⟨-, -, -, hle⟩ := d.isValid_date
  refine ⟨hyear, hmonth, ?_, ?_⟩ <;> omega

/-- A shift by months has one target: the date of the calendar whose month is that many months from
the month of the instant, with the same day, or with the last one of a month that is shorter. It has
a result exactly if the count fits 32 bits and the target is representable, and the result is the
instant of the target at the same time of day; no shift by months ends the run. A shift by years is
the one by twelve times as many months, which has no result if these do not fit a word. A shift
there and back leads into the same month, to the same day exactly if the month between has that day
and to an earlier one else. -/
theorem shift_month (d : Instant) (count : ℤ) :
    (∃ target : Date, target.IsValid ∧ target.monthIndex = d.date.monthIndex + count ∧
      target.day = min d.date.day (monthLength target.year target.month) ∧
      ((∃ d', d.shift count .month = .ok d') ↔
        count.natAbs < 2 ^ 32 ∧ target.IsRepresentable) ∧
      (∀ d', d.shift count .month = .ok d' ↔
        d'.date = target ∧ d'.secondOfDay = d.secondOfDay ∧ d'.nanos = d.nanos) ∧
      (¬ (count.natAbs < 2 ^ 32 ∧ target.IsRepresentable) →
        d.shift count .month = .error .unrepresentable)) ∧
    (d.shift count .year =
      if IsWord (12 * count) then d.shift (12 * count) .month else .error .unrepresentable) ∧
    ∀ d' d'', d.shift count .month = .ok d' → d'.shift (-count) .month = .ok d'' →
      d''.date.year = d.date.year ∧ d''.date.month = d.date.month ∧ d''.date.day ≤ d.date.day ∧
      (d''.date.day = d.date.day ↔ d.date.day ≤ monthLength d'.date.year d'.date.month) := by
  have hbound (n : ℤ) : (n.natAbs < 2 ^ 32 ∧ (d.monthsLater n).IsRepresentable) ↔
      (d.monthsLater n).IsRepresentable :=
    ⟨And.right, fun h => ⟨natAbs_lt_of_isRepresentable h, h⟩⟩
  refine ⟨⟨d.monthsLater count, d.isValid_monthsLater count, Date.monthIndex_ofMonthIndex ..,
    Date.day_ofMonthIndex .., ?_, fun d' => shift_month_eq_ok_iff, fun h => ?_⟩, ?_,
    fun d' d'' => date_of_shift_month_back⟩
  · rw [hbound, ← exists_addMonths?_iff]
    simp only [shift_month_eq, representable_eq_ok_iff]
  · exact shift_month_eq_error (mt (hbound count).2 h)
  · rw [shift_year_eq]
    split
    · rfl
    · next hword =>
      refine shift_month_eq_error fun h => hword ?_
      have := natAbs_lt_of_isRepresentable h
      unfold IsWord
      omega

/-- A month from the 31st of January 2024 is the 29th of February. -/
example : shift { seconds := 1706659200, nanos := 0 } 1 .month =
    .ok { seconds := 1709164800, nanos := 0 } := by decide +kernel

end Instant

end SeriesQuery
