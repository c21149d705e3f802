import SeriesQuery.Macro.Expansion
import SeriesQuery.Placeholder
import SeriesQuery.Target
import SeriesQuery.Time.Range
import SeriesQuery.Variable.Substitution

/-!
# Compilation

A target and a request give one line of SQL. The time context comes first, and its failures are
those of the compilation. Then the query goes through three stages: the macro call it starts with
is expanded, variables are substituted, placeholders are filled in. An error in the macro call is
no failure: the query is taken as it is written, and the error is reported beside the SQL.
-/

namespace SeriesQuery

open Text

/-- What one request brings along. -/
structure Request where
  now : Instant
  range : TimeRange
  /-- The width of a bucket for targets that set none. -/
  interval : Text
  scope : Scope := .empty

/-- A compiled query. -/
structure Compiled where
  sql : Text
  /-- The macro that was expanded. -/
  kind : Option Macro.Kind
  /-- Why a macro call was left as it is written. -/
  fallback : Option Text
  time : TimeContext
  deriving DecidableEq, Repr

/-- A query after its first stage. -/
structure Expanded where
  text : Text
  kind : Option Macro.Kind := none
  fallback : Option Text := none
  deriving DecidableEq, Repr

/-- The expansion of the macro call that a query starts with, if it starts with one. -/
def expandCall (resolveName : Text → Text) (query : Text) :
    Except QueryError (Option (Macro.Kind × Text)) := do
  match ← Macro.readCall query with
  | none => return none
  | some call => return some (call.kind, ← call.expand resolveName)

/-- The query with its macro call expanded, or as it is written if that fails. -/
def expandQuery (resolveName : Text → Text) (query : Text) : Except QueryError Expanded :=
  match expandCall resolveName query with
  | .ok (some (kind, text)) => .ok { text, kind := some kind }
  | .ok none => .ok { text := query }
  | .error e =>
    if e.isRecoverable then .ok { text := query, fallback := some e.message } else .error e

namespace Target

variable (t : Target) (registry : Registry) (request : Request)

/-- The width of a bucket: the target's own unless it is blank, else that of the request. -/
def intervalText : Text :=
  match t.interval.map (registry.substitute request.scope .plain) with
  | some interval => if trim interval = [] then request.interval else interval
  | none => request.interval

/-- The time values of a request. -/
def timeContext : Except Failure TimeContext :=
  request.range.resolve request.now t.rounding (t.intervalText registry request)
    (if t.intervalFactor = 0 then 1 else t.intervalFactor)

/-- What the placeholders stand for. -/
def symbols (time : TimeContext) : Symbols where
  time := time
  table := t.qualifiedTable
  dateColumn := t.dateColumn
  dateTimeColumn := t.dateTimeColumn

/-- The compiled query of a target. -/
def compile : Except Failure Compiled := do
  let time ← t.timeContext registry request
  let expanded ←
    (expandQuery (registry.substitute request.scope .plain) t.query).mapError Failure.error
  let query := registry.substitute request.scope .query expanded.text
  return {
    sql := (t.symbols time).render query
    kind := expanded.kind
    fallback := expanded.fallback
    time }

end Target

end SeriesQuery
