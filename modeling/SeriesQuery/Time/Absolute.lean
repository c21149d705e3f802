import SeriesQuery.Text.Blank
import SeriesQuery.Text.DecimalDigit
import SeriesQuery.Time.Instant

/-!
# Absolute dates

The four ways to write an instant out: a number of milliseconds since the epoch, a timestamp with
an offset as in RFC 3339 (`readTimestamp?`), a date and a time of day (`readDateTime?`), and a
date alone (`readDay?`), the last two in UTC. A date or time is read field by field;
`CivilTime.toInstant?` checks its fields and gives the instant. Second 60 is the leap second after
second 59.

Timestamps have fields of fixed width. The other two forms allow blanks before each number, one
digit for two, and a sign before a year, which can then have any number of digits.
-/

namespace SeriesQuery

open Text

/-- The fields of a date and a time of day, not checked yet. -/
structure CivilTime where
  date : Date
  hour : Nat := 0
  minute : Nat := 0
  second : Nat := 0
  nanos : Nat := 0
  deriving DecidableEq, Repr

namespace CivilTime

/-- Whether the calendar has the day and the day has the time. -/
def IsValid (t : CivilTime) : Prop :=
  t.date.IsValid ∧ t.hour < 24 ∧ t.minute < 60 ∧ t.second ≤ 60

instance (t : CivilTime) : Decidable t.IsValid := inferInstanceAs (Decidable (_ ∧ _))

/-- The instant of a date and time that are `offset` seconds ahead of UTC. -/
def toInstant? (t : CivilTime) (offset : Int) : Option Instant :=
  if t.IsValid then
    let midnight := t.date.dayNumber * Instant.secondsPerDay
    let second : Int := t.hour * 3600 + t.minute * 60 + (min t.second 59 : Nat)
    Instant.ofSeconds? (midnight + second - offset)
      (t.nanos + if t.second = 60 then nanosPerSecond else 0)
  else none

end CivilTime

/-- The number of exactly `width` ASCII digits at the front of a text, and what follows it. -/
def readDigits? (width : Nat) (s : Text) : Option (Nat × Text) :=
  let digits := s.take width
  if digits.length = width ∧ digits.all Char.isDigit then some (digitsValue digits, s.drop width)
  else none

/-- The fraction of a second in nanoseconds: no digits, or a point and digits, of which nine
count. -/
def readFraction? (s : Text) : Option (Nat × Text) :=
  match after? ['.'] s with
  | none => some (0, s)
  | some r =>
    let digits := r.takeWhile Char.isDigit
    if digits = [] then none
    else
      let counted := digits.take 9
      some (digitsValue counted * Nat.pow 10 (9 - counted.length), r.dropWhile Char.isDigit)

/-- The offset from UTC in seconds: the letter Z, or a sign with hours and minutes. -/
def readOffset? : Text → Option (Int × Text)
  | [] => none
  | c :: r =>
    if c = 'Z' ∨ c = 'z' then some (0, r)
    else do
      let sign : Int ←
        if c = '+' then some 1 else if c = '-' ∨ c = '\u2212' then some (-1) else none
      let (hours, r) ← readDigits? 2 r
      let r ← after? [':'] r
      let (minutes, r) ← readDigits? 2 r
      if hours < 24 ∧ minutes < 60 then some (sign * (hours * 3600 + minutes * 60), r) else none

/-- The text behind the mark between the date and the time of a timestamp. -/
def afterTimeMark? : Text → Option Text
  | c :: r => if c = 'T' ∨ c = 't' ∨ c = ' ' then some r else none
  | [] => none

/-- The instant of a timestamp with an offset. -/
def readTimestamp? (s : Text) : Option Instant := do
  let (year, s) ← readDigits? 4 s
  let (month, s) ← readDigits? 2 (← after? ['-'] s)
  let (day, s) ← readDigits? 2 (← after? ['-'] s)
  let (hour, s) ← readDigits? 2 (← afterTimeMark? s)
  let (minute, s) ← readDigits? 2 (← after? [':'] s)
  let (second, s) ← readDigits? 2 (← after? [':'] s)
  let (nanos, s) ← readFraction? s
  let (offset, s) ← readOffset? s
  if s = [] then CivilTime.toInstant? ⟨⟨year, month, day⟩, hour, minute, second, nanos⟩ offset
  else none

/-- A number of at least one and at most `width` ASCII digits behind blanks, and what follows it. -/
def readField? (width : Nat) (s : Text) : Option (Nat × Text) :=
  let s := trimStart s
  let digits := (s.take width).takeWhile Char.isDigit
  if digits = [] then none else some (digitsValue digits, s.drop digits.length)

/-- A year behind blanks: up to four digits, or a sign and any number of them. -/
def readYear? (s : Text) : Option (Int × Text) :=
  match trimStart s with
  | '-' :: r => if r.head?.any Char.isDigit then
      (readField? r.length r).map fun (year, s) => (-(year : Int), s) else none
  | '+' :: r => if r.head?.any Char.isDigit then
      (readField? r.length r).map fun (year, s) => ((year : Int), s) else none
  | s => (readField? 4 s).map fun (year, s) => ((year : Int), s)

/-- A date with hyphens, and what follows it. -/
def readCivilDate? (s : Text) : Option (Date × Text) := do
  let (year, s) ← readYear? s
  let (month, s) ← readField? 2 (← after? ['-'] s)
  let (day, s) ← readField? 2 (← after? ['-'] s)
  return (⟨year, month, day⟩, s)

/-- The instant of a date and a time of day in UTC. -/
def readDateTime? (s : Text) : Option Instant := do
  let (date, s) ← readCivilDate? s
  let (hour, s) ← readField? 2 s
  let (minute, s) ← readField? 2 (← after? [':'] s)
  let (second, s) ← readField? 2 (← after? [':'] s)
  if s = [] then CivilTime.toInstant? ⟨date, hour, minute, second, 0⟩ 0 else none

/-- The midnight of a date in UTC. -/
def readDay? (s : Text) : Option Instant := do
  let (date, s) ← readCivilDate? s
  if s = [] then CivilTime.toInstant? { date } 0 else none

/-- The instant that a text writes out. -/
def readAbsolute? (s : Text) : Option Instant :=
  let s := trim s
  match number? s with
  | some millis => Instant.ofMillis? millis
  | none => (readTimestamp? s).or ((readDateTime? s).or (readDay? s))

end SeriesQuery
