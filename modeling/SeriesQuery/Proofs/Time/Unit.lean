import SeriesQuery.Proofs.Failure
import SeriesQuery.Proofs.Time.Calendar

/-!
# The units that a second lies in

A second lies in one second, minute, hour, day, week, month and year. `DateUnit.first` is the second
in which that unit begins and `DateUnit.length` is how long the unit lasts, both by the calendar
alone; the second lies between them (`DateUnit.first_le`, `DateUnit.lt_first_add_length`).

Rounding goes to these: down to the first second (`Instant.startOf_eq_ok_iff`), up to the
millisecond before the next unit begins (`Instant.millis_endOf`).
-/

namespace SeriesQuery

namespace DateUnit

/-- The first second of the unit that a second lies in. -/
def first : DateUnit → ℤ → ℤ
  | second, s => s
  | minute, s => s - s % 60
  | hour, s => s - s % 3600
  | day, s => s / Instant.secondsPerDay * Instant.secondsPerDay
  | week, s =>
    let day := s / Instant.secondsPerDay
    (day - daysSinceMonday day) * Instant.secondsPerDay
  | month, s =>
    { Date.ofDayNumber (s / Instant.secondsPerDay) with day := 1 }.dayNumber * Instant.secondsPerDay
  | year, s => firstDayOfYear (yearOfDay (s / Instant.secondsPerDay)) * Instant.secondsPerDay

/-- The length in seconds of the unit that a second lies in. -/
def length : DateUnit → ℤ → ℤ
  | second, _ => 1
  | minute, _ => 60
  | hour, _ => 3600
  | day, _ => Instant.secondsPerDay
  | week, _ => 7 * Instant.secondsPerDay
  | month, s =>
    let date := Date.ofDayNumber (s / Instant.secondsPerDay)
    monthLength date.year date.month * Instant.secondsPerDay
  | year, s =>
    (if isLeapYear (yearOfDay (s / Instant.secondsPerDay)) then 366 else 365) *
      Instant.secondsPerDay

end DateUnit

namespace Date

variable {d : Date}

/-- A day follows the first one of its month by one day less than it counts. -/
theorem dayNumber_eq_add (d : Date) : d.dayNumber = { d with day := 1 }.dayNumber + d.day - 1 := by
  dsimp only [dayNumber]
  omega

/-- A year begins on the first of January. -/
theorem dayNumber_firstOfYear (year : ℤ) : dayNumber ⟨year, 1, 1⟩ = firstDayOfYear year := by
  have hbefore : daysBeforeMonth year 1 = 0 := rfl
  dsimp only [dayNumber]
  omega

/-- Every month has a first day. -/
theorem IsValid.firstOfMonth (h : d.IsValid) : IsValid { d with day := 1 } := by
  obtain ⟨hmonth, hmonth', hday, hday'⟩ := h
  exact ⟨hmonth, hmonth', le_rfl, hday.trans hday'⟩

/-- Every month has a day. -/
theorem one_le_monthLength (year : ℤ) (month : ℕ) : 1 ≤ monthLength year month := by
  unfold monthLength
  split
  · split <;> decide
  all_goals decide

/-- Every year has a first of January. -/
theorem isValid_firstOfYear (year : ℤ) : IsValid ⟨year, 1, 1⟩ :=
  ⟨le_rfl, Nat.le_add_left 1 11, le_rfl, one_le_monthLength year 1⟩

/-- The first of the next month comes after all days of the month. -/
theorem IsValid.dayNumber_nextMonth (h : d.IsValid) :
    (ofMonthIndex (d.monthIndex + 1) 1).dayNumber =
      { d with day := 1 }.dayNumber + monthLength d.year d.month := by
  obtain ⟨hmonth, hmonth', -, -⟩ := h
  have hsucc := daysBeforeMonth_succ d.year hmonth
  dsimp only [ofMonthIndex, monthIndex]
  rw [min_eq_left (one_le_monthLength _ _)]
  rcases hmonth'.lt_or_eq with hlt | heq
  · rw [show (12 * d.year + ((d.month : ℤ) - 1) + 1) / 12 = d.year by omega,
      show ((12 * d.year + ((d.month : ℤ) - 1) + 1) % 12).toNat + 1 = d.month + 1 by omega]
    dsimp only [dayNumber]
    omega
  · rw [show (12 * d.year + ((d.month : ℤ) - 1) + 1) / 12 = d.year + 1 by omega,
      show ((12 * d.year + ((d.month : ℤ) - 1) + 1) % 12).toNat + 1 = 1 by omega,
      dayNumber_firstOfYear]
    have hend := daysBeforeMonth_end d.year
    rw [heq, show 12 + 1 = 13 from rfl] at hsucc
    dsimp only [dayNumber]
    rw [heq]
    omega

/-- The first of January of the next year comes after all days of the year. -/
theorem dayNumber_nextYear (year : ℤ) :
    (ofMonthIndex (monthIndex ⟨year, 1, 1⟩ + 12) 1).dayNumber =
      firstDayOfYear year + if isLeapYear year then 366 else 365 := by
  dsimp only [ofMonthIndex, monthIndex]
  rw [min_eq_left (one_le_monthLength _ _),
    show (12 * year + (((1 : ℕ) : ℤ) - 1) + 12) / 12 = year + 1 by omega,
    show ((12 * year + (((1 : ℕ) : ℤ) - 1) + 12) % 12).toNat + 1 = 1 by omega,
    dayNumber_firstOfYear, firstDayOfYear_succ]

end Date

namespace DateUnit

variable (unit : DateUnit) (s : ℤ)

/-- The units of fixed length have that length wherever they lie. -/
theorem length_of_fixedLength? {l : ℤ} (h : unit.fixedLength? = some l) : unit.length s = l := by
  cases unit <;> cases h <;> rfl

/-- A second does not lie before its unit. -/
theorem first_le : unit.first s ≤ s := by
  cases unit with
  | second => exact le_rfl
  | minute | hour | day =>
    dsimp only [first, Instant.secondsPerDay]
    omega
  | week =>
    dsimp only [first, daysSinceMonday, Instant.secondsPerDay]
    omega
  | month =>
    have hday := Date.dayNumber_eq_add (.ofDayNumber (s / Instant.secondsPerDay))
    have hvalid := Date.isValid_ofDayNumber (s / Instant.secondsPerDay)
    rw [Date.dayNumber_ofDayNumber] at hday
    obtain ⟨-, -, hpos, -⟩ := hvalid
    dsimp only [first, Instant.secondsPerDay] at *
    omega
  | year =>
    have hday := firstDayOfYear_yearOfDay_le (s / Instant.secondsPerDay)
    dsimp only [first, Instant.secondsPerDay] at *
    omega

/-- A second does not lie behind its unit. -/
theorem lt_first_add_length : s < unit.first s + unit.length s := by
  cases unit with
  | second | minute | hour | day =>
    dsimp only [first, length, Instant.secondsPerDay]
    omega
  | week =>
    dsimp only [first, length, daysSinceMonday, Instant.secondsPerDay]
    omega
  | month =>
    have hday := Date.dayNumber_eq_add (.ofDayNumber (s / Instant.secondsPerDay))
    have hvalid := Date.isValid_ofDayNumber (s / Instant.secondsPerDay)
    rw [Date.dayNumber_ofDayNumber] at hday
    obtain ⟨-, -, -, hle⟩ := hvalid
    dsimp only [first, length, Instant.secondsPerDay] at *
    omega
  | year =>
    have hday := lt_firstDayOfYear_yearOfDay (s / Instant.secondsPerDay)
    rw [firstDayOfYear_succ] at hday
    dsimp only [first, length, Instant.secondsPerDay] at *
    omega

end DateUnit

namespace Instant

variable {d e : Instant} {unit : DateUnit} {seconds : ℤ}

theorem representable_eq_ok_iff {o : Option Instant} : representable o = .ok d ↔ o = some d := by
  cases o with
  | none => exact ⟨nofun, nofun⟩
  | some d' => exact ⟨fun h => by cases h; rfl, fun h => by cases h; rfl⟩

/-- A second is representable as the instant at its beginning. -/
theorem representable_ofSecond?_eq_ok_iff :
    representable (ofSecond? seconds) = .ok d ↔ d.seconds = seconds ∧ d.nanos = 0 :=
  representable_eq_ok_iff.trans ofSeconds?_eq_some_iff

/-- A week that begins before the first date has no start. -/
theorem startOf_week (d : Instant) :
    d.startOf .week = match ofSecond? (DateUnit.week.first d.seconds) with
      | some monday => .ok monday
      | none => .error .abort := rfl

/-- Rounding down goes to the first second of the unit. -/
theorem startOf_eq_ok_iff :
    d.startOf unit = .ok e ↔ e.seconds = unit.first d.seconds ∧ e.nanos = 0 := by
  cases unit with
  | second | minute | hour | day | month => exact representable_ofSecond?_eq_ok_iff
  | week =>
    rw [startOf_week, ← ofSeconds?_eq_some_iff]
    change _ ↔ ofSecond? (DateUnit.week.first d.seconds) = some e
    cases ofSecond? (DateUnit.week.first d.seconds) with
    | none => exact ⟨nofun, nofun⟩
    | some monday => exact ⟨fun h => by cases h; rfl, fun h => by cases h; rfl⟩
  | year =>
    have hyear := (Date.isValid_ofDayNumber d.dayNumber).yearOfDay
    rw [Date.dayNumber_ofDayNumber] at hyear
    rw [startOf, midnight?, representable_ofSecond?_eq_ok_iff, Date.dayNumber_firstOfYear, date,
      ← hyear]
    rfl

/-- The instants at a time of day on a date of the calendar are those with this date and time. -/
theorem seconds_eq_iff {day : Date} (hday : day.IsValid) {second : ℤ} (hsecond : 0 ≤ second)
    (hsecond' : second < secondsPerDay) :
    d.seconds = day.dayNumber * secondsPerDay + second ↔ d.date = day ∧ d.secondOfDay = second := by
  constructor
  · intro h
    have hnumber : d.dayNumber = day.dayNumber := by
      unfold dayNumber secondsPerDay at *
      omega
    refine ⟨by rw [date, hnumber, Date.ofDayNumber_dayNumber hday], ?_⟩
    unfold secondOfDay secondsPerDay at *
    omega
  · rintro ⟨rfl, rfl⟩
    rw [date, Date.dayNumber_ofDayNumber]
    unfold dayNumber secondOfDay secondsPerDay
    omega

/-- A shift by a unit of fixed length adds its seconds. -/
theorem addSeconds?_of_shift {amount l : ℤ} (hl : unit.fixedLength? = some l)
    (h : d.shift amount unit = .ok e) : d.addSeconds? (amount * l) = some e := by
  simp only [shift, hl] at h
  split at h
  · cases h
  · split at h
    · cases h
    · exact representable_eq_ok_iff.1 h

/-- Where its seconds are not too many, a shift by a unit of fixed length does nothing but add
them. -/
theorem shift_of_natAbs_le {amount l : ℤ} (hl : unit.fixedLength? = some l)
    (hle : (amount * l).natAbs ≤ maxShift) :
    d.shift amount unit = representable (d.addSeconds? (amount * l)) := by
  have hword : IsWord (amount * l) := by
    unfold maxShift at hle
    unfold IsWord
    omega
  simp only [shift, hl, if_neg (not_not.2 hword), if_neg (not_lt.2 hle)]

/-- From the beginning of a month or year, a shift by months goes by days. -/
theorem addMonths?_of_midnight {day : Date} (hday : day.IsValid)
    (hd : d.seconds = day.dayNumber * secondsPerDay) (count : ℤ) :
    d.addMonths? count =
      ofSeconds? ((Date.ofMonthIndex (day.monthIndex + count) day.day).dayNumber * secondsPerDay)
        d.nanos := by
  obtain ⟨hdate, hsecond⟩ := (seconds_eq_iff hday le_rfl (by decide)).1 (hd.trans (add_zero _).symm)
  simp only [addMonths?, hdate, hsecond, add_zero]

/-- From the first second of a unit, a shift by one goes to the first second of the next. -/
theorem shift_one_of_first {s : ℤ} (hd : d.seconds = unit.first s) (hnanos : d.nanos = 0) :
    d.shift 1 unit = representable (ofSecond? (unit.first s + unit.length s)) := by
  cases hl : unit.fixedLength? with
  | some l =>
    have hleap : ¬ d.InLeapSecond := by
      rw [InLeapSecond, hnanos]
      decide
    have hle : (1 * l).natAbs ≤ maxShift := by cases unit <;> cases hl <;> decide
    rw [shift_of_natAbs_le hl hle, one_mul, addSeconds?, if_neg hleap, hd, hnanos,
      unit.length_of_fixedLength? s hl]
    rfl
  | none =>
    have hvalid := Date.isValid_ofDayNumber (s / secondsPerDay)
    cases unit with
    | month =>
      have hnext := (congrArg (· * secondsPerDay) hvalid.dayNumber_nextMonth).trans (add_mul ..)
      refine congrArg representable ?_
      rw [if_neg (by decide), addMonths?_of_midnight hvalid.firstOfMonth hd, hnanos]
      exact congrArg ofSecond? hnext
    | year =>
      have hnext := (congrArg (· * secondsPerDay)
        (Date.dayNumber_nextYear (yearOfDay (s / secondsPerDay)))).trans (add_mul ..)
      rw [DateUnit.first, ← Date.dayNumber_firstOfYear] at hd
      refine congrArg representable ?_
      rw [if_pos rfl, addMonths?_of_midnight (Date.isValid_firstOfYear _) hd, hnanos]
      exact congrArg ofSecond? hnext
    | second | minute | hour | day | week => cases hl

/-- The last millisecond of a second is the one before the next second begins. -/
theorem ofMillis?_pred_eq_some_iff :
    ofMillis? (seconds * 1000 - 1) = some e ↔ e.seconds + 1 = seconds ∧ e.nanos = 999000000 := by
  rw [ofMillis?_eq_some_iff]
  unfold millis InLeapSecond nanosPerSecond
  omega

/-- Rounding up goes to the last millisecond of the unit, if the unit and the next one begin at
representable instants. -/
theorem endOf_eq_ok_iff :
    d.endOf unit = .ok e ↔
      firstSecond ≤ unit.first d.seconds ∧
        unit.first d.seconds + unit.length d.seconds ≤ lastSecond ∧
        e.seconds + 1 = unit.first d.seconds + unit.length d.seconds ∧ e.nanos = 999000000 := by
  have hend (next : Instant)
      (hseconds : next.seconds = unit.first d.seconds + unit.length d.seconds)
      (hnanos : next.nanos = 0) :
      representable (ofMillis? (next.millis - 1)) = .ok e ↔
        e.seconds + 1 = unit.first d.seconds + unit.length d.seconds ∧ e.nanos = 999000000 := by
    rw [representable_eq_ok_iff, ← ofMillis?_pred_eq_some_iff, millis, hseconds, hnanos]
    simp
  rw [endOf, bind_eq_ok_iff]
  constructor
  · rintro ⟨start, hstart, h⟩
    obtain ⟨next, hnext, h⟩ := bind_eq_ok_iff.1 h
    obtain ⟨hfirst, hnanos⟩ := startOf_eq_ok_iff.1 hstart
    rw [shift_one_of_first hfirst hnanos] at hnext
    obtain ⟨hseconds, hnanos'⟩ := representable_ofSecond?_eq_ok_iff.1 hnext
    have hlower := start.seconds_mem.1
    have hupper := next.seconds_mem.2
    rw [hfirst] at hlower
    rw [hseconds] at hupper
    exact ⟨hlower, hupper, (hend next hseconds hnanos').1 h⟩
  · rintro ⟨hlower, hupper, he⟩
    have hle := unit.first_le d.seconds
    have hlt := unit.lt_first_add_length d.seconds
    obtain ⟨hd, hd'⟩ := d.seconds_mem
    let start : Instant := ⟨unit.first d.seconds, 0, ⟨hlower, by omega⟩, epoch_nanos_lt⟩
    let next : Instant :=
      ⟨unit.first d.seconds + unit.length d.seconds, 0, ⟨by omega, hupper⟩, epoch_nanos_lt⟩
    refine ⟨start, startOf_eq_ok_iff.2 ⟨rfl, rfl⟩, bind_eq_ok_iff.2 ⟨next, ?_, ?_⟩⟩
    · rw [shift_one_of_first (s := d.seconds) rfl rfl]
      exact representable_ofSecond?_eq_ok_iff.2 ⟨rfl, rfl⟩
    · exact (hend next rfl rfl).2 he

/-- Rounding up goes to the millisecond before the next unit begins, which is representable. -/
theorem exists_next_of_endOf (h : d.endOf unit = .ok e) :
    ∃ next : Instant, next.seconds = unit.first d.seconds + unit.length d.seconds ∧
      next.nanos = 0 ∧ ofMillis? (next.millis - 1) = some e := by
  obtain ⟨-, hupper, he⟩ := endOf_eq_ok_iff.1 h
  have hlt := unit.lt_first_add_length d.seconds
  have hlower : firstSecond ≤ unit.first d.seconds + unit.length d.seconds :=
    d.seconds_mem.1.trans hlt.le
  refine ⟨⟨_, 0, ⟨hlower, hupper⟩, epoch_nanos_lt⟩, rfl, rfl, ?_⟩
  rw [millis, Nat.zero_div, Nat.cast_zero, add_zero]
  exact ofMillis?_pred_eq_some_iff.2 he

/-- The end of a unit is a millisecond before the next unit begins. -/
theorem millis_endOf (h : d.endOf unit = .ok e) :
    e.millis + 1 = (unit.first d.seconds + unit.length d.seconds) * 1000 := by
  obtain ⟨next, hseconds, hnanos, he⟩ := exists_next_of_endOf h
  rw [millis_of_ofMillis? he, millis, hseconds, hnanos]
  omega

/-- Outside leap seconds, an instant does not lie behind the end of its unit. -/
theorem millis_le_endOf (hleap : ¬ d.InLeapSecond) (h : d.endOf unit = .ok e) :
    d.millis ≤ e.millis := by
  have hend := millis_endOf h
  have hlt := unit.lt_first_add_length d.seconds
  unfold InLeapSecond nanosPerSecond at hleap
  unfold millis at *
  omega

end Instant

end SeriesQuery
