import SeriesQuery.CommandLine.Memory
import SeriesQuery.Main
import SeriesQuery.Proofs.Macro.Nesting
import SeriesQuery.Proofs.Failure
import SeriesQuery.Proofs.Text.Blank
import SeriesQuery.Proofs.Compile.Outcome
import SeriesQuery.Proofs.Macro.Arguments
import SeriesQuery.Proofs.Variable.Interpolation
import SeriesQuery.Proofs.Variable.Structure
import SeriesQuery.Proofs.Text.Keyword
import SeriesQuery.Proofs.Text.Segment
import SeriesQuery.Proofs.Variable.Reference
import SeriesQuery.Proofs.Variable.Substitution
import SeriesQuery.Proofs.Placeholder
import SeriesQuery.Proofs.Macro.Call
import SeriesQuery.Proofs.Compile.Verbatim
import SeriesQuery.Proofs.Compile.Rate
import SeriesQuery.Proofs.Compile.RateColumns
import SeriesQuery.Proofs.Duration
import SeriesQuery.Proofs.Time.Instant
import SeriesQuery.Proofs.Time.Range
import SeriesQuery.Proofs.Time.Expression
import SeriesQuery.Proofs.Text.Numeral
import SeriesQuery.Proofs.Time.Calendar
import SeriesQuery.Proofs.Time.Absolute
import SeriesQuery.Proofs.Time.Printed
import SeriesQuery.Proofs.Time.Unit
import SeriesQuery.Proofs.Time.Order
import SeriesQuery.Proofs.Macro.Balance
import SeriesQuery.Proofs.Compile.Event
import SeriesQuery.Proofs.Condition
import SeriesQuery.Proofs.Macro.TimeFilter
import SeriesQuery.Proofs.Compile.OneLine
import SeriesQuery.Proofs.Macro.Clauses
import SeriesQuery.Proofs.Compile.Reserved
import SeriesQuery.Proofs.Compile.Comment
import SeriesQuery.Proofs.Macro.Comment
import SeriesQuery.Proofs.Time.Partition
import SeriesQuery.Proofs.Time.Month
import SeriesQuery.Proofs.Macro.RateClauses
import SeriesQuery.Proofs.Time.Abort
import SeriesQuery.Proofs.Placeholder.Definition
import SeriesQuery.Proofs.Compile.Interval
import SeriesQuery.Proofs.Duration.Ceiling
import SeriesQuery.Proofs.Duration.Reading
import SeriesQuery.Proofs.Macro.Call.Parenthesis
import SeriesQuery.Proofs.Macro.Comment.Grammar
import SeriesQuery.Proofs.Macro.TimeFilter.Insertion
import SeriesQuery.Proofs.Macro.EventColumn
import SeriesQuery.Proofs.Time.Step
