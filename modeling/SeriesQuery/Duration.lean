import SeriesQuery.Error
import SeriesQuery.MachineWord
import SeriesQuery.Rounding
import SeriesQuery.Text.DecimalDigit

/-!
# Durations

A duration is a whole number with a unit, such as `10m` or `200ms`. `Duration.find` takes the first
run of digits in a text that a unit follows at once; the text around it does not matter.
`bucketSeconds` turns it into the whole seconds of a bucket: at least one second, times a factor,
rounded up. Its arithmetic is that of `round53`.
-/

namespace SeriesQuery

open Text

inductive DurationUnit
  | millisecond
  | second
  | minute
  | hour
  | day
  | week
  /-- The twelfth part of a year. -/
  | month
  /-- The mean Gregorian year of 365.2425 days. -/
  | year
  deriving DecidableEq, Repr

namespace DurationUnit

/-- The spellings of the units; one that another starts with stands behind it. -/
def spellings : List (Text × DurationUnit) :=
  [("month".toList, month), ("year".toList, year), ("ms".toList, millisecond),
    ("s".toList, second), ("m".toList, minute), ("h".toList, hour), ("d".toList, day),
    ("w".toList, week), ("M".toList, month), ("y".toList, year)]

/-- The unit that a text starts with. -/
def atFront? (s : Text) : Option DurationUnit :=
  spellings.findSome? fun (spelling, unit) => (after? spelling s).map fun _ => unit

/-- The length of the unit in seconds. -/
def seconds : DurationUnit → Rat
  | millisecond => round53 (1 / 1000)
  | second => 1
  | minute => 60
  | hour => 3600
  | day => 86400
  | week => 604800
  | month => round53 (round53 (30436875 / 1000000) * 86400)
  | year => round53 (round53 (3652425 / 10000) * 86400)

end DurationUnit

/-- The first number past the magnitudes of durations. -/
def magnitudeBound : Nat := 18446744073709551616

/-- A whole number of a unit. -/
structure Duration where
  magnitude : Nat
  unit : DurationUnit
  magnitude_lt : magnitude < magnitudeBound := by decide
  deriving DecidableEq, Repr

namespace Duration

/-- The first run of digits that a unit follows at once, given whether the text goes on a run to its
left. -/
def findSpelled? : (inRun : Bool) → Text → Option (Text × DurationUnit)
  | _, [] => none
  | inRun, c :: r =>
    if !inRun && isDecimalDigit c then
      match DurationUnit.atFront? ((c :: r).dropWhile isDecimalDigit) with
      | some unit => some ((c :: r).takeWhile isDecimalDigit, unit)
      | none => findSpelled? true r
    else findSpelled? (isDecimalDigit c) r

/-- The first duration in a text. Only ASCII digits have a value, and no later duration is tried for
one whose digits have none. -/
def find (s : Text) : Except QueryError Duration :=
  match findSpelled? false s with
  | none => .error (.invalidDuration s)
  | some (digits, unit) =>
    match number? digits with
    | none => .error (.invalidDuration s)
    | some n => if h : n < magnitudeBound then .ok ⟨n, unit, h⟩ else .error (.invalidDuration s)

/-- The length in seconds, possibly fractional. -/
def seconds (d : Duration) : Rat := round53 (round53 d.magnitude * d.unit.seconds)

/-- The length in whole seconds after scaling; shorter durations count as one second. -/
def scaledSeconds (d : Duration) (factor : Nat) : Int :=
  let seconds := if d.seconds < 1 then 1 else d.seconds
  (round53 (seconds * factor)).ceil

end Duration

/-- The whole seconds of the duration in a text, scaled by a factor. -/
def bucketSeconds (s : Text) (factor : UInt32) : Except QueryError Int := do
  let seconds := (← Duration.find s).scaledSeconds factor.toNat
  if IsWord seconds then .ok seconds else .error (.invalidDuration s)

end SeriesQuery
