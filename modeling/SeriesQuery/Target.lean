import SeriesQuery.Text.Basic

/-!
# Targets

The stored settings of one query: its template, the table and time columns it reads, and how time is
cut into buckets.
-/

namespace SeriesQuery

open Text

/-- The stored settings of one query. -/
structure Target where
  /-- The template. -/
  query : Text := []
  database : Text := "default".toList
  table : Text := []
  /-- The column of days. -/
  dateColumn : Text := "EventDate".toList
  /-- The column of instants. -/
  dateTimeColumn : Text := "EventTime".toList
  /-- The width of a bucket, which may refer to variables. -/
  interval : Option Text := none
  intervalFactor : UInt32 := 1
  /-- The duration that the lower bound of the range is rounded down to. -/
  rounding : Option Text := none
  deriving DecidableEq, Repr

/-- The table with its database. -/
def Target.qualifiedTable (t : Target) : Text := t.database ++ ['.'] ++ t.table

end SeriesQuery
