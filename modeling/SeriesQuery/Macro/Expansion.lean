import SeriesQuery.Macro.Call
import SeriesQuery.Text.Segment

/-!
# Expansion

Each macro call stands for nested SELECT statements over time buckets. The statements still hold the
placeholders `$timeSeries`, `$timeFilter` and `$table`, which are filled in later. `Call.expand` is
the whole rule; `columns`, `rateColumns`, `rate` and `event` are its four cases.

Every expression that becomes a column needs an alias, the last word of its argument
(`aliasOf`). The time filter goes into the first WHERE of the source, or into one of its own behind
it (`withTimeFilter`).
-/

namespace SeriesQuery.Macro

open Text

/-- The alias of an expression: its last word, unless a call ends it. -/
def aliasOf (argument : Text) : Except QueryError Text :=
  let argument := trim argument
  if argument.getLast? = some ')' ∨ argument = [] then .error (.missingAlias argument)
  else .ok (lastWord argument)

/-- The query with the time filter as the first condition of its first WHERE, or of a new one. -/
def withTimeFilter (query : Text) : Text :=
  let query := trimEnd query
  match Keyword.whereClause.split? query with
  | some o => o.before ++ "WHERE $timeFilter AND ".toList ++ trimStart o.rest
  | none => query ++ " WHERE $timeFilter".toList

/-- The source without its HAVING clause, and that clause behind a space. -/
def splitHaving (source : Text) : Text × Text :=
  match Keyword.havingClause.split? source with
  | some o => (o.before, ' ' :: trim (o.word ++ o.rest))
  | none => (source, [])

/-- Pairs of a key and a value, gathered into one array for each time bucket. -/
def columns (key value source : Text) : Except QueryError Text := do
  let keyAlias ← aliasOf key
  let valueAlias ← aliasOf value
  let (source, having) := splitHaving source
  return "SELECT t, groupArray((".toList ++ keyAlias ++ ", ".toList ++ valueAlias
    ++ ")) AS groupArr FROM (SELECT $timeSeries AS t, ".toList ++ key ++ ", ".toList ++ value
    ++ " ".toList ++ withTimeFilter source ++ " GROUP BY t, ".toList ++ keyAlias ++ having
    ++ " ORDER BY t) GROUP BY t ORDER BY t".toList

/-- The pairs of `columns` with each value divided by the seconds since the bucket before. -/
def rateColumns (key value source : Text) : Except QueryError Text := do
  let pairs ← columns key value source
  return "SELECT t, arrayMap(a -> (a.1, a.2 / runningDifference(t/1000)), groupArr) FROM (".toList
    ++ pairs ++ ")".toList

/-- The rate per second of each aliased expression, in a column named after its alias. -/
def rate (args : List Text) (source : Text) : Except QueryError Text :=
  if args = [] then .error (.noArguments .rate)
  else do
    let aliases ← args.mapM aliasOf
    let rates := aliases.map fun a =>
      a ++ " / runningDifference(t/1000) AS ".toList ++ a ++ "Rate".toList
    return "SELECT t, ".toList ++ join ", ".toList rates
      ++ " FROM (SELECT $timeSeries AS t, ".toList ++ join ", ".toList args ++ " ".toList
      ++ withTimeFilter source ++ " GROUP BY t ORDER BY t)".toList

/-- A column of an event, read off the front of a text: two underscores and the word behind them. -/
def readEventColumn? (s : Text) : Option (Text × Text) :=
  match after? "__".toList s with
  | none => none
  | some r => if leadingWord r = [] then none else some (leadingWord r, afterWord r)

/-- Columns of an event, such as `__duration`. -/
def eventColumn : TokenRule Text where
  read? := readEventColumn?
  spell name := "__".toList ++ name
  spell_ne_nil _ := by simp
  spell_append {s t r} h := by
    simp only [readEventColumn?] at h
    split at h
    · simp at h
    · next u hu =>
      split at h
      · simp at h
      · simp only [Option.some.injEq, Prod.mk.injEq] at h
        rw [← h.1, ← h.2, List.append_assoc, leadingWord_append_afterWord]
        exact (after?_eq_some_iff.1 hu).symm

/-- What is counted for an event when the call does not say. -/
def defaultAggregation : Text := "count()".toList

/-- The aggregation with the name of the event in front of each of its columns. -/
def qualifyColumns (event aggregation : Text) : Text :=
  eventColumn.substitute (fun name => event ++ eventColumn.spell name) aggregation

/-- One aggregation over the events of one type, for each time bucket. -/
def event (name : Text) (aggregation : Option Text) : Text :=
  "SELECT $timeSeries AS t, ".toList
    ++ qualifyColumns name (aggregation.getD defaultAggregation) ++ " AS ".toList ++ name
    ++ " FROM $table WHERE $timeFilter AND event = '".toList ++ name
    ++ "' GROUP BY t ORDER BY t".toList

/-- The statements that a call stands for, where `resolveName` fills in variables in the name of an
event. -/
def Call.expand (resolveName : Text → Text) : Call → Except QueryError Text
  | .columns key value source => Macro.columns key value source
  | .rateColumns key value source => Macro.rateColumns key value source
  | .rate args source => Macro.rate args source
  | .event name aggregation => .ok (Macro.event (resolveName name) aggregation)

end SeriesQuery.Macro
