import SeriesQuery.MachineWord
import SeriesQuery.Time.Calendar

/-!
# Instants

A representable instant: seconds since the epoch and nanoseconds within the second, from the first
second of the year -262143 to the last one of 262142. A second that a leap second follows can go on
for another one, so nanoseconds run below two milliards.

Date arithmetic shifts an instant by an amount of a unit (`shift`) or takes it to the start or end
of the unit it lies in (`startOf`, `endOf`). A step whose result is not representable has the
fault `unrepresentable`. Two steps have no result of either kind and end the run (`abort`): a
shift by more than `maxShift` seconds, and the start of a week that begins before the first date.
-/

namespace SeriesQuery

/-- The second at which -262143-01-01 begins. -/
def firstSecond : Int := -8334601228800

/-- The last second of 262142-12-31. -/
def lastSecond : Int := 8210266876799

/-- The length of a second in nanoseconds. -/
def nanosPerSecond : Nat := 1000000000

/-- A representable point in time. -/
structure Instant where
  /-- Whole seconds since the epoch, leap seconds not counted. -/
  seconds : Int
  /-- Nanoseconds since the second began. -/
  nanos : Nat
  seconds_mem : firstSecond ≤ seconds ∧ seconds ≤ lastSecond := by decide
  nanos_lt : nanos < 2 * nanosPerSecond := by decide
  deriving DecidableEq, Repr

/-- Why a step of date arithmetic has no result. -/
inductive DateFault
  | unrepresentable
  | abort
  deriving DecidableEq, Repr

/-- A unit of date arithmetic. -/
inductive DateUnit
  | second
  | minute
  | hour
  | day
  | week
  | month
  | year
  deriving DecidableEq, Repr

namespace DateUnit

/-- The length in seconds of a unit that always has the same. -/
def fixedLength? : DateUnit → Option Int
  | second => some 1
  | minute => some 60
  | hour => some 3600
  | day => some 86400
  | week => some 604800
  | month => none
  | year => none

end DateUnit

namespace Instant

theorem epoch_seconds_mem : firstSecond ≤ 0 ∧ 0 ≤ lastSecond := by decide

theorem epoch_nanos_lt : 0 < 2 * nanosPerSecond := by decide

/-- The beginning of 1970-01-01. -/
def epoch : Instant := ⟨0, 0, epoch_seconds_mem, epoch_nanos_lt⟩

def secondsPerDay : Int := 86400

/-- The instant of these seconds and nanoseconds, if it is representable. -/
def ofSeconds? (seconds : Int) (nanos : Nat) : Option Instant :=
  if h : firstSecond ≤ seconds ∧ seconds ≤ lastSecond then
    if hn : nanos < 2 * nanosPerSecond then some ⟨seconds, nanos, h, hn⟩ else none
  else none

/-- The second of an instant, outside leap seconds. -/
def ofSecond? (seconds : Int) : Option Instant := ofSeconds? seconds 0

/-- The instant of a number of milliseconds since the epoch. -/
def ofMillis? (millis : Int) : Option Instant :=
  ofSeconds? (millis / 1000) ((millis % 1000).toNat * 1000000)

/-- Milliseconds since the epoch; those of a leap second are counted on. -/
def millis (d : Instant) : Int := d.seconds * 1000 + (d.nanos / 1000000 : Nat)

/-- Seconds since the epoch, rounded up from the milliseconds. -/
def ceilSeconds (d : Instant) : Int := (d.millis + 999) / 1000

/-- The number of the day that the instant lies in. -/
def dayNumber (d : Instant) : Int := d.seconds / secondsPerDay

/-- Seconds since midnight. -/
def secondOfDay (d : Instant) : Int := d.seconds % secondsPerDay

def date (d : Instant) : Date := .ofDayNumber d.dayNumber

/-- Whether the instant lies in a leap second. -/
def InLeapSecond (d : Instant) : Prop := nanosPerSecond ≤ d.nanos

instance (d : Instant) : Decidable d.InLeapSecond := inferInstanceAs (Decidable (_ ≤ _))

/-- Midnight of a day. -/
def midnight? (day : Date) : Option Instant := ofSecond? (day.dayNumber * secondsPerDay)

/-- The instant some whole seconds later, or earlier for a negative count. A leap second is left
before the count begins: forwards it is over, backwards it has not begun. -/
def addSeconds? (d : Instant) (count : Int) : Option Instant :=
  if d.InLeapSecond then
    if count = 0 then some d
    else
      ofSeconds? (d.seconds + count + if count < 0 then 1 else 0) (d.nanos - nanosPerSecond)
  else ofSeconds? (d.seconds + count) d.nanos

/-- The same time of the day some months later, on the last day of a month that is too short. -/
def addMonths? (d : Instant) (count : Int) : Option Instant :=
  let day := Date.ofMonthIndex (d.date.monthIndex + count) d.date.day
  ofSeconds? (day.dayNumber * secondsPerDay + d.secondOfDay) d.nanos

/-- The greatest number of seconds that a shift can have. -/
def maxShift : Nat := 9223372036854775

/-- An optional result, where a missing one is not representable. -/
def representable : Option Instant → Except DateFault Instant
  | some d => .ok d
  | none => .error .unrepresentable

/-- The instant an amount of a unit later, or earlier for a negative amount. -/
def shift (d : Instant) (amount : Int) (unit : DateUnit) : Except DateFault Instant :=
  match unit.fixedLength? with
  | some length =>
    if ¬ IsWord (amount * length) then .error .unrepresentable
    else if maxShift < (amount * length).natAbs then .error .abort
    else representable (d.addSeconds? (amount * length))
  | none => representable (d.addMonths? (if unit = .year then 12 * amount else amount))

/-- The first instant of the unit that an instant lies in. -/
def startOf (d : Instant) : DateUnit → Except DateFault Instant
  | .second => representable (ofSecond? d.seconds)
  | .minute => representable (ofSecond? (d.seconds - d.seconds % 60))
  | .hour => representable (ofSecond? (d.seconds - d.seconds % 3600))
  | .day => representable (ofSecond? (d.dayNumber * secondsPerDay))
  | .week =>
    match ofSecond? ((d.dayNumber - daysSinceMonday d.dayNumber) * secondsPerDay) with
    | some monday => .ok monday
    | none => .error .abort
  | .month => representable (midnight? { d.date with day := 1 })
  | .year => representable (midnight? ⟨d.date.year, 1, 1⟩)

/-- The last millisecond of the unit that an instant lies in, just before the next unit starts. -/
def endOf (d : Instant) (unit : DateUnit) : Except DateFault Instant := do
  let next ← (← d.startOf unit).shift 1 unit
  representable (ofMillis? (next.millis - 1))

/-- The range of instants begins with the year -262143. -/
theorem firstSecond_eq : firstSecond = Date.dayNumber ⟨-262143, 1, 1⟩ * secondsPerDay := by decide

/-- The range of instants ends with the year 262142. -/
theorem lastSecond_eq : lastSecond = Date.dayNumber ⟨262143, 1, 1⟩ * secondsPerDay - 1 := by decide

end Instant

end SeriesQuery
