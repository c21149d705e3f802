import SeriesQuery.Text.Basic

/-!
# Time contexts

What a query needs to know about time: the two bounds of its range in seconds since the epoch, the
width of a bucket in seconds, and whether the range ends at the present.
-/

namespace SeriesQuery

/-- The resolved time values of one request. -/
structure TimeContext where
  lower : Int
  upper : Int
  interval : Int
  /-- The upper bound was given as the literal `now`. -/
  upperIsNow : Bool
  deriving DecidableEq, Repr

end SeriesQuery
