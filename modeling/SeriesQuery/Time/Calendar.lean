/-!
# The calendar

The proleptic Gregorian calendar. Days are numbered from 1970-01-01 on, negative before it;
`Date.dayNumber` and `Date.ofDayNumber` go between a day's number and its year, month and day.
Weeks start on Monday.
-/

namespace SeriesQuery

/-- Every fourth year is a leap year, full centuries only when 400 divides them. -/
def isLeapYear (year : Int) : Bool := year % 4 = 0 && (year % 100 ≠ 0 || year % 400 = 0)

/-- The number of days of a month. -/
def monthLength (year : Int) (month : Nat) : Nat :=
  match month with
  | 2 => if isLeapYear year then 29 else 28
  | 4 | 6 | 9 | 11 => 30
  | _ => 31

/-- The number of 1970-01-01 among the days from 0001-01-01 on. -/
def epochOffset : Int := 719162

/-- The number of the first of January. -/
def firstDayOfYear (year : Int) : Int :=
  365 * (year - 1) + (year - 1) / 4 - (year - 1) / 100 + (year - 1) / 400 - epochOffset

/-- The days of a year before a month. -/
def daysBeforeMonth (year : Int) (month : Nat) : Nat :=
  (List.range (month - 1)).foldr (fun m days => monthLength year (m + 1) + days) 0

/-- The year that a day lies in. -/
def yearOfDay (day : Int) : Int :=
  let guess := (day + epochOffset) * 400 / 146097 + 1
  if firstDayOfYear (guess + 1) ≤ day then guess + 1 else guess

/-- The month and day of the month, among the months from the first of the list on. -/
def splitMonths (year : Int) : List Nat → Nat → Nat × Nat
  | [], days => (12, days + 1)
  | m :: ms, days =>
    if days < monthLength year m then (m, days + 1)
    else splitMonths year ms (days - monthLength year m)

/-- A day of the calendar. -/
structure Date where
  year : Int
  month : Nat
  day : Nat
  deriving DecidableEq, Repr

namespace Date

/-- Whether the month has the day. -/
def IsValid (d : Date) : Prop :=
  1 ≤ d.month ∧ d.month ≤ 12 ∧ 1 ≤ d.day ∧ d.day ≤ monthLength d.year d.month

instance (d : Date) : Decidable d.IsValid := inferInstanceAs (Decidable (_ ∧ _))

def dayNumber (d : Date) : Int :=
  firstDayOfYear d.year + daysBeforeMonth d.year d.month + d.day - 1

def ofDayNumber (day : Int) : Date :=
  let year := yearOfDay day
  let (month, dayOfMonth) :=
    splitMonths year [1, 2, 3, 4, 5, 6, 7, 8, 9, 10, 11, 12] (day - firstDayOfYear year).toNat
  ⟨year, month, dayOfMonth⟩

/-- The months from the first of the year 0 on. -/
def monthIndex (d : Date) : Int := 12 * d.year + (d.month - 1)

/-- The day of the month that an index counts to, or the last one of a month that is shorter. -/
def ofMonthIndex (index : Int) (day : Nat) : Date :=
  let year := index / 12
  let month := (index % 12).toNat + 1
  ⟨year, month, min day (monthLength year month)⟩

end Date

/-- The days since the last Monday. -/
def daysSinceMonday (day : Int) : Int := (day + 3) % 7

theorem isLeapYear_iff {year : Int} :
    isLeapYear year ↔ year % 4 = 0 ∧ (year % 100 ≠ 0 ∨ year % 400 = 0) := by
  simp [isLeapYear]

/-- A year is a day longer if it is a leap year. -/
theorem firstDayOfYear_succ (year : Int) :
    firstDayOfYear (year + 1) = firstDayOfYear year + if isLeapYear year then 366 else 365 := by
  by_cases h : isLeapYear year
  · rw [if_pos h]
    rw [isLeapYear_iff] at h
    simp only [firstDayOfYear]
    omega
  · rw [if_neg h]
    rw [isLeapYear_iff] at h
    simp only [firstDayOfYear]
    omega

/-- A day lies in its year. -/
theorem firstDayOfYear_yearOfDay_le (day : Int) : firstDayOfYear (yearOfDay day) ≤ day := by
  unfold yearOfDay
  dsimp only
  split
  · assumption
  · simp only [firstDayOfYear, epochOffset] at *
    omega

/-- A day lies before the year after its own. -/
theorem lt_firstDayOfYear_yearOfDay (day : Int) : day < firstDayOfYear (yearOfDay day + 1) := by
  unfold yearOfDay
  dsimp only
  split
  · simp only [firstDayOfYear, epochOffset] at *
    omega
  · omega

end SeriesQuery
