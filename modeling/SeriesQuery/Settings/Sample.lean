import SeriesQuery.Text.Basic

/-!
# The sample settings file

A settings file that sets every setting to its default, except for the table, with a comment on
each.
-/

namespace SeriesQuery

open Text

private def sampleLines : List String :=
  ["# tsquery Configuration",
    "#",
    "# Environment variables override these settings:",
    "# - TSQUERY_DATABASE",
    "# - TSQUERY_TABLE",
    "# - TSQUERY_DATE_COL",
    "# - TSQUERY_DATE_TIME_COL",
    "# - TSQUERY_INTERVAL",
    "# - TSQUERY_LOG_LEVEL",
    "# - TSQUERY_LOG_FORMAT",
    "",
    "[target]",
    "# Database and table behind $table",
    "database = \"default\"",
    "table = \"requests\"",
    "",
    "# Column behind $timeCol (Date)",
    "date_col = \"EventDate\"",
    "",
    "# Column behind $dateTimeCol (DateTime)",
    "date_time_col = \"EventTime\"",
    "",
    "# Bucket interval; the request's automatic interval is used when unset",
    "# interval = \"1m\"",
    "",
    "# Multiplier applied to the bucket interval",
    "interval_factor = 1",
    "",
    "# Round the range start down to a multiple of this duration",
    "# round = \"1m\"",
    "",
    "# Example template variable",
    "# [[variables]]",
    "# name = \"host\"",
    "# multi = true",
    "# include_all = true",
    "# options = [\x7b value = \"$__all\" \x7d, \x7b value = \"web-1\" \x7d, \x7b value = \"web-2\" \x7d]",
    "# current = [\"web-1\", \"web-2\"]",
    "",
    "[logging]",
    "# Log level: trace, debug, info, warn, error",
    "level = \"info\"",
    "",
    "# Log format: pretty (for development) or json (for production)",
    "format = \"pretty\""]

/-- The text of the sample settings file. -/
def sampleSettings : Text := sampleLines.flatMap fun line => line.toList ++ ['\n']

end SeriesQuery
