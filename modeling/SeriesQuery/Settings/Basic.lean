import SeriesQuery.Data
import SeriesQuery.Target
import SeriesQuery.Variable.Substitution

/-!
# Settings

The settings of the program: the target, the variables every query can refer to, and how the program
logs. They are read from structured data, and single settings can then be overridden by variables of
the environment.
-/

namespace SeriesQuery

open Text Data

/-- How the program logs. -/
structure Logging where
  level : Text := "info".toList
  format : Text := "pretty".toList
  deriving DecidableEq, Repr

/-- The settings of the program. -/
structure Settings where
  target : Target := {}
  /-- The variables every query can refer to. -/
  declared : List Variable := []
  logging : Logging := {}
  deriving DecidableEq, Repr

section Reading

variable (surplus : Surplus)

/-- A value: a text or a list of texts. -/
def Value.ofData? : Data → Option Value
  | .text s => some (.single s)
  | d => (d.list? text?).map .multi

/-- An option of a variable, a structure with one field. -/
def optionOfData? (d : Data) : Option Text := do
  let fields ← d.fields? surplus ["value".toList]
  requiredField fields "value" text?

def Variable.ofData? (d : Data) : Option Variable := do
  let fields ← d.fields? surplus
    (["name", "multi", "include_all", "options", "current"].map String.toList)
  return {
    name := ← requiredField fields "name" text?
    multi := ← optionalField fields "multi" boolean? false
    includeAll := ← optionalField fields "include_all" boolean? false
    options := ← optionalField fields "options" (list? (optionOfData? surplus)) []
    current := ← optionalField fields "current" Value.ofData? (.single []) }

def Target.ofData? (d : Data) : Option Target := do
  let fields ← d.fields? surplus
    (["query", "database", "table", "date_col", "date_time_col", "interval", "interval_factor",
      "round"].map String.toList)
  let unset : Target := {}
  return {
    query := ← optionalField fields "query" text? unset.query
    database := ← optionalField fields "database" text? unset.database
    table := ← optionalField fields "table" text? unset.table
    dateColumn := ← optionalField fields "date_col" text? unset.dateColumn
    dateTimeColumn := ← optionalField fields "date_time_col" text? unset.dateTimeColumn
    interval := ← optionalField fields "interval" (nullable? text?) unset.interval
    intervalFactor := ← optionalField fields "interval_factor" word? unset.intervalFactor
    rounding := ← optionalField fields "round" (nullable? text?) unset.rounding }

def Logging.ofData? (d : Data) : Option Logging := do
  let fields ← d.fields? surplus (["level", "format"].map String.toList)
  let unset : Logging := {}
  return {
    level := ← optionalField fields "level" text? unset.level
    format := ← optionalField fields "format" text? unset.format }

def Settings.ofData? (d : Data) : Option Settings := do
  let fields ← d.fields? surplus (["target", "variables", "logging"].map String.toList)
  return {
    target := ← optionalField fields "target" (Target.ofData? surplus) {}
    declared := ← optionalField fields "variables" (list? (Variable.ofData? surplus)) []
    logging := ← optionalField fields "logging" (Logging.ofData? surplus) {} }

end Reading

namespace Settings

/-- The variables of the settings, of which the later ones replace the earlier of their names. -/
def registry (s : Settings) : Registry := .ofVariables s.declared

/-- A setting that a variable of the environment replaces when it is set, also to an empty text. -/
def override (environment : List (Text × Text)) (name : String) (setting : Text) : Text :=
  (environment.lookup name.toList).getD setting

/-- The settings with those of the environment in their places. -/
def overrideWith (environment : List (Text × Text)) (s : Settings) : Settings :=
  let set := override environment
  { s with
    target := { s.target with
      database := set "TSQUERY_DATABASE" s.target.database
      table := set "TSQUERY_TABLE" s.target.table
      dateColumn := set "TSQUERY_DATE_COL" s.target.dateColumn
      dateTimeColumn := set "TSQUERY_DATE_TIME_COL" s.target.dateTimeColumn
      interval := (environment.lookup "TSQUERY_INTERVAL".toList).or s.target.interval }
    logging := {
      level := set "TSQUERY_LOG_LEVEL" s.logging.level
      format := set "TSQUERY_LOG_FORMAT" s.logging.format } }

end Settings

end SeriesQuery
