import Mathlib.Algebra.BigOperators.Intervals
import SeriesQuery.Proofs.Time.Instant
import SeriesQuery.Time.Absolute

/-!
# The calendar and back

Days and their numbers correspond: the day of every number is one of the calendar and has that
number (`Date.dayNumber_ofDayNumber`), and a day of the calendar is the one of its number
(`Date.ofDayNumber_dayNumber`). The years cut the line of days, the months cut each year, and a
day is found by the cuts it lies between.

On a clock at a given offset from UTC, an instant has one date and time of day (`Instant.civil`),
and a date and time of day are those of one instant (`CivilTime.existsUnique_civil`).
-/

namespace SeriesQuery

/-! ## Years -/

/-- A year is over when a later one begins. -/
theorem firstDayOfYear_succ_le {year year' : ℤ} (h : year < year') :
    firstDayOfYear (year + 1) ≤ firstDayOfYear year' := by
  unfold firstDayOfYear
  omega

/-- Later years begin later. -/
theorem firstDayOfYear_mono {year year' : ℤ} (h : year ≤ year') :
    firstDayOfYear year ≤ firstDayOfYear year' := by
  unfold firstDayOfYear
  omega

/-- A day lies in one year. -/
theorem yearOfDay_eq {year day : ℤ} (hfirst : firstDayOfYear year ≤ day)
    (hnext : day < firstDayOfYear (year + 1)) : yearOfDay day = year := by
  have hfirst' := firstDayOfYear_yearOfDay_le day
  have hnext' := lt_firstDayOfYear_yearOfDay day
  rcases lt_trichotomy (yearOfDay day) year with hlt | heq | hgt
  · have := firstDayOfYear_succ_le hlt
    omega
  · exact heq
  · have := firstDayOfYear_succ_le hgt
    omega

/-! ## Months -/

section
variable (year : ℤ) {month month' : ℕ}

/-- The days before a month are those of the months in front of it. -/
theorem daysBeforeMonth_eq_sum (month : ℕ) :
    daysBeforeMonth year month =
      ((List.range (month - 1)).map fun m => monthLength year (m + 1)).sum := by
  rw [daysBeforeMonth, List.sum, List.foldr_map]

/-- A month ends where the next one begins. -/
theorem daysBeforeMonth_succ (hmonth : 1 ≤ month) :
    daysBeforeMonth year (month + 1) = daysBeforeMonth year month + monthLength year month := by
  obtain ⟨m, rfl⟩ := Nat.exists_eq_add_of_le' hmonth
  rw [daysBeforeMonth_eq_sum, daysBeforeMonth_eq_sum]
  exact List.sum_range_succ ..

/-- No fewer days come before a later month. -/
theorem daysBeforeMonth_mono (h : month ≤ month') :
    daysBeforeMonth year month ≤ daysBeforeMonth year month' := by
  induction month', h using Nat.le_induction with
  | base => exact le_rfl
  | succ m hm ih =>
    rcases Nat.eq_zero_or_pos m with rfl | hpos
    · exact ih
    · rw [daysBeforeMonth_succ year hpos]
      exact Nat.le_add_right_of_le ih

/-- The months make up the year. -/
theorem daysBeforeMonth_end :
    (daysBeforeMonth year 13 : ℤ) = firstDayOfYear (year + 1) - firstDayOfYear year := by
  rw [firstDayOfYear_succ]
  cases h : isLeapYear year <;> simp [daysBeforeMonth, monthLength, List.range_succ, h]

/-- The days of some months from the first of one on fall on the days of these months. -/
theorem splitMonths_range' : ∀ (count first days : ℕ), 1 ≤ first →
    daysBeforeMonth year first + days < daysBeforeMonth year (first + count) →
      ∃ month day, splitMonths year (List.range' first count) days = (month, day) ∧
        first ≤ month ∧ month < first + count ∧ 1 ≤ day ∧ day ≤ monthLength year month ∧
        daysBeforeMonth year month + day = daysBeforeMonth year first + days + 1
  | 0, first, days, _, hdays => by
    rw [Nat.add_zero] at hdays
    omega
  | count + 1, first, days, hfirst, hdays => by
    have hsucc := daysBeforeMonth_succ year hfirst
    rw [List.range'_succ, splitMonths]
    by_cases hin : days < monthLength year first
    · exact ⟨first, days + 1, if_pos hin, le_rfl, by omega, by omega, by omega, by omega⟩
    · obtain ⟨month, day, heq, hge, hlt, hday, hle, hsum⟩ :=
        splitMonths_range' count (first + 1) (days - monthLength year first) (by omega)
          (by rw [show first + 1 + count = first + (count + 1) by omega]; omega)
      exact ⟨month, day, by rw [if_neg hin, heq], by omega, by omega, hday, hle, by omega⟩

end

/-- No month has more than 31 days. -/
theorem monthLength_le (year : ℤ) (month : ℕ) : monthLength year month ≤ 31 := by
  unfold monthLength
  split
  · split <;> decide
  all_goals decide

/-! ## Days -/

namespace Date

variable {d d' : Date}

/-- The day of a number is one of the calendar, and the number is its own. -/
theorem ofDayNumber_spec (n : ℤ) : (ofDayNumber n).IsValid ∧ (ofDayNumber n).dayNumber = n := by
  have hfirst := firstDayOfYear_yearOfDay_le n
  have hnext := lt_firstDayOfYear_yearOfDay n
  have hend := daysBeforeMonth_end (yearOfDay n)
  have hin : (n - firstDayOfYear (yearOfDay n)).toNat < daysBeforeMonth (yearOfDay n) 13 := by omega
  obtain ⟨month, day, heq, hge, hlt, hday, hle, hsum⟩ :=
    splitMonths_range' (yearOfDay n) 12 1 _ le_rfl ((Nat.zero_add _).trans_lt hin)
  have hdate : ofDayNumber n = ⟨yearOfDay n, month, day⟩ := by
    rw [ofDayNumber, show [1, 2, 3, 4, 5, 6, 7, 8, 9, 10, 11, 12] = List.range' 1 12 from rfl, heq]
  rw [hdate]
  refine ⟨⟨hge, Nat.le_of_lt_succ hlt, hday, hle⟩, ?_⟩
  rw [show daysBeforeMonth (yearOfDay n) 1 = 0 from rfl] at hsum
  dsimp only [dayNumber]
  omega

/-- Every day has a date of the calendar. -/
theorem isValid_ofDayNumber (n : ℤ) : (ofDayNumber n).IsValid := (ofDayNumber_spec n).1

/-- The date of a day has its number. -/
theorem dayNumber_ofDayNumber (n : ℤ) : (ofDayNumber n).dayNumber = n := (ofDayNumber_spec n).2

/-- A day of the calendar lies in the year it names. -/
theorem IsValid.yearOfDay (h : d.IsValid) : yearOfDay d.dayNumber = d.year := by
  obtain ⟨hmonth, hmonth', hday, hday'⟩ := h
  have hend := daysBeforeMonth_end d.year
  have hle : daysBeforeMonth d.year (d.month + 1) ≤ daysBeforeMonth d.year 13 :=
    daysBeforeMonth_mono d.year (by omega)
  rw [daysBeforeMonth_succ d.year hmonth] at hle
  exact yearOfDay_eq (by unfold dayNumber; omega) (by unfold dayNumber; omega)

/-- Days of the calendar with the same number are the same. -/
theorem IsValid.eq_of_dayNumber_eq (h : d.IsValid) (h' : d'.IsValid)
    (he : d.dayNumber = d'.dayNumber) : d = d' := by
  have hyear : d.year = d'.year := by rw [← h.yearOfDay, he, h'.yearOfDay]
  obtain ⟨year, month, day⟩ := d
  obtain ⟨year', month', day'⟩ := d'
  obtain ⟨hmonth, -, hday, hle⟩ := h
  obtain ⟨hmonth', -, hday', hle'⟩ := h'
  dsimp only at *
  subst hyear
  dsimp only [dayNumber] at he
  have hsucc := daysBeforeMonth_succ year hmonth
  have hsucc' := daysBeforeMonth_succ year hmonth'
  rcases lt_trichotomy month month' with hlt | rfl | hgt
  · have hle : daysBeforeMonth year (month + 1) ≤ daysBeforeMonth year month' :=
      daysBeforeMonth_mono year hlt
    omega
  · rw [show day = day' by omega]
  · have hle : daysBeforeMonth year (month' + 1) ≤ daysBeforeMonth year month :=
      daysBeforeMonth_mono year hgt
    omega

/-- A date of the calendar is that of its day. -/
theorem ofDayNumber_dayNumber (h : d.IsValid) : ofDayNumber d.dayNumber = d :=
  (isValid_ofDayNumber _).eq_of_dayNumber_eq h (dayNumber_ofDayNumber _)

/-- A date lies in its year. -/
theorem IsValid.dayNumber_mem (h : d.IsValid) :
    firstDayOfYear d.year ≤ d.dayNumber ∧ d.dayNumber < firstDayOfYear (d.year + 1) := by
  rw [← h.yearOfDay]
  exact ⟨firstDayOfYear_yearOfDay_le _, lt_firstDayOfYear_yearOfDay _⟩

end Date

/-! ## Clocks -/

/-- The date and time of day of an instant outside leap seconds, on a clock that is `offset` seconds
ahead of UTC. -/
def Instant.civil (d : Instant) (offset : ℤ) : CivilTime where
  date := .ofDayNumber ((d.seconds + offset) / secondsPerDay)
  hour := ((d.seconds + offset) % secondsPerDay / 3600).toNat
  minute := ((d.seconds + offset) % 3600 / 60).toNat
  second := ((d.seconds + offset) % 60).toNat
  nanos := d.nanos

namespace CivilTime

/-- A date and time of day as clocks show it outside leap seconds, in the years of four digits. -/
structure IsPlain (t : CivilTime) : Prop where
  isValid : t.date.IsValid
  year_mem : 0 ≤ t.date.year ∧ t.date.year ≤ 9999
  hour_lt : t.hour < 24
  minute_lt : t.minute < 60
  second_lt : t.second < 60
  nanos_lt : t.nanos < nanosPerSecond

variable {t : CivilTime} {d : Instant} {offset : ℤ}

/-- What a clock shows of an instant, in the years of four digits. -/
theorem isPlain_civil (hleap : ¬ d.InLeapSecond)
    (hyear : 0 ≤ (d.civil offset).date.year ∧ (d.civil offset).date.year ≤ 9999) :
    (d.civil offset).IsPlain where
  isValid := Date.isValid_ofDayNumber _
  year_mem := hyear
  hour_lt := by
    dsimp only [Instant.civil, Instant.secondsPerDay]
    omega
  minute_lt := by
    dsimp only [Instant.civil]
    omega
  second_lt := by
    dsimp only [Instant.civil]
    omega
  nanos_lt := not_le.1 hleap

/-- The seconds since the epoch when a clock `offset` seconds ahead of UTC shows a date and time. -/
def seconds (t : CivilTime) (offset : ℤ) : ℤ :=
  t.date.dayNumber * Instant.secondsPerDay + (t.hour * 3600 + t.minute * 60 + t.second) - offset

/-- Outside leap seconds, a civil time is the instant of its seconds. -/
theorem IsPlain.toInstant?_eq (h : t.IsPlain) (offset : ℤ) :
    t.toInstant? offset = Instant.ofSeconds? (t.seconds offset) t.nanos := by
  have hvalid : t.IsValid := ⟨h.isValid, h.hour_lt, h.minute_lt, h.second_lt.le⟩
  have hsecond : min t.second 59 = t.second := min_eq_left (Nat.le_of_lt_succ h.second_lt)
  rw [toInstant?, if_pos hvalid, if_neg h.second_lt.ne, hsecond, Nat.add_zero]
  rfl

/-- A clock shows a plain date and time at its seconds. -/
theorem IsPlain.civil_eq (h : t.IsPlain) (hseconds : d.seconds = t.seconds offset)
    (hnanos : d.nanos = t.nanos) : d.civil offset = t := by
  obtain ⟨hdate, -, hhour, hminute, hsecond, -⟩ := h
  have hday : (d.seconds + offset) / Instant.secondsPerDay = t.date.dayNumber := by
    rw [hseconds]
    unfold seconds Instant.secondsPerDay
    omega
  rw [Instant.civil, hday, Date.ofDayNumber_dayNumber hdate, hseconds, hnanos]
  obtain ⟨date, hour, minute, second, nanos⟩ := t
  dsimp only [seconds, Instant.secondsPerDay] at *
  congr 1 <;> omega

/-- The instant of what a clock shows is the one it shows. -/
theorem IsPlain.toInstant?_civil (h : (d.civil offset).IsPlain) :
    (d.civil offset).toInstant? offset = some d := by
  rw [h.toInstant?_eq, Instant.ofSeconds?_eq_some_iff]
  refine ⟨?_, rfl⟩
  dsimp only [seconds, Instant.civil]
  rw [Date.dayNumber_ofDayNumber]
  unfold Instant.secondsPerDay
  omega

/-- On a clock less than a day from UTC, a plain date and time of day is that of one instant. -/
theorem IsPlain.existsUnique_civil (h : t.IsPlain) (hoffset : |offset| < 86400) :
    ∃! d : Instant, ¬ d.InLeapSecond ∧ d.civil offset = t := by
  obtain ⟨hfirst, hnext⟩ := h.isValid.dayNumber_mem
  have hlower : -719528 ≤ t.date.dayNumber := (firstDayOfYear_mono h.year_mem.1).trans hfirst
  have hupper : t.date.dayNumber < 2932897 :=
    hnext.trans_le (firstDayOfYear_mono (Int.add_le_add_right h.year_mem.2 1))
  have hmem : firstSecond ≤ t.seconds offset ∧ t.seconds offset ≤ lastSecond := by
    have hhour := h.hour_lt
    have hminute := h.minute_lt
    have hsecond := h.second_lt
    obtain ⟨habove, hbelow⟩ := abs_lt.1 hoffset
    unfold seconds firstSecond lastSecond Instant.secondsPerDay
    omega
  let d : Instant := ⟨t.seconds offset, t.nanos, hmem, h.nanos_lt.trans (by decide)⟩
  have hcivil : d.civil offset = t := h.civil_eq rfl rfl
  refine ⟨d, ⟨not_le.2 h.nanos_lt, hcivil⟩, fun d' ⟨_, hcivil'⟩ => ?_⟩
  have hd := (hcivil.symm ▸ h).toInstant?_civil
  have hd' := (hcivil'.symm ▸ h).toInstant?_civil
  rw [hcivil] at hd
  rw [hcivil', hd] at hd'
  exact (Option.some.inj hd').symm

end CivilTime

end SeriesQuery
