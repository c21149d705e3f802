import SeriesQuery.Text.Basic

/-!
# The macros

The four macros a query may start with. A macro is written as its `name`, a dollar sign and a word;
reports give its `tag`, the word alone.
-/

namespace SeriesQuery.Macro

/-- Which macro a query starts with. -/
inductive Kind
  /-- Pairs of a key and a value, one array of pairs for each time bucket. -/
  | columns
  /-- The same with every value turned into a rate per second. -/
  | rateColumns
  /-- The rate per second of each aliased expression. -/
  | rate
  /-- One aggregation over the events of one type. -/
  | event
  deriving DecidableEq, Repr

namespace Kind

/-- The four kinds. -/
def all : List Kind := [columns, rateColumns, rate, event]

def tag : Kind → Text
  | columns => "columns".toList
  | rateColumns => "rateColumns".toList
  | rate => "rate".toList
  | event => "event".toList

def name (k : Kind) : Text := '$' :: k.tag

/-- What a call of the macro starts with: the name and an opening parenthesis. -/
def head (k : Kind) : Text := k.name ++ ['(']

end Kind

end SeriesQuery.Macro
