import SeriesQuery.Duration
import SeriesQuery.Time.Context
import SeriesQuery.Time.Expression

/-!
# Time ranges

A request asks for a range between two bounds, each an instant or a date expression. `resolve` turns
it into a time context: both bounds in seconds, rounded up from milliseconds, and the width of a
bucket. A rounding takes the lower bound down to a multiple of its duration first; the upper bound
stays. Expressions are rounded up, so a lower bound `now/d` is the end of the day.
-/

namespace SeriesQuery

open Text

/-- A bound of a range. -/
inductive Bound
  | instant (d : Instant)
  | expression (text : Text)
  deriving DecidableEq, Repr

/-- A range of time. -/
structure TimeRange where
  lower : Bound
  upper : Bound
  /-- The upper bound was given as the literal `now`. -/
  upperIsNow : Bool
  deriving DecidableEq, Repr

/-- The range between two date expressions. -/
def TimeRange.ofTexts (lower upper : Text) : TimeRange :=
  ⟨.expression lower, .expression upper, trim upper = DateExpression.present⟩

namespace Bound

/-- The instant of a bound. -/
def resolve (now : Instant) : Bound → Except Failure Instant
  | instant d => .ok d
  | expression text => resolveDate now true text

/-- The seconds of a bound since the epoch, rounded up. -/
def seconds (now : Instant) (b : Bound) : Except Failure Int := do
  return (← b.resolve now).ceilSeconds

/-- The texts that ask for no rounding. -/
def isNoRounding (rounding : Text) : Bool := rounding = [] || rounding = "0s".toList

/-- The length in milliseconds of the duration that a bound is rounded to. -/
def roundingMillis (rounding : Text) : Except QueryError Int := do
  let millis := (← bucketSeconds rounding 1) * 1000
  if IsWord millis then .ok millis else .error (.invalidDuration rounding)

/-- The bound at the last multiple of a duration that is not after it. -/
def round (now : Instant) (rounding : Option Text) (b : Bound) : Except Failure Bound :=
  match rounding with
  | none => .ok b
  | some rounding =>
    if isNoRounding rounding then .ok b
    else do
      let millis := (← b.resolve now).millis
      let unit ← (roundingMillis rounding).mapError Failure.error
      let rounded := millis / unit * unit
      match Instant.ofMillis? rounded with
      | some d => .ok (.instant d)
      | none => .error (.error (.invalidDate (decimal rounded)))

end Bound

/-- The time context of a range with an interval that is scaled by a factor. -/
def TimeRange.resolve (now : Instant) (range : TimeRange) (rounding : Option Text)
    (interval : Text) (factor : UInt32) : Except Failure TimeContext := do
  let lower ← (← range.lower.round now rounding).seconds now
  let upper ← range.upper.seconds now
  let interval ← (bucketSeconds interval factor).mapError Failure.error
  return ⟨lower, upper, interval, range.upperIsNow⟩

end SeriesQuery
