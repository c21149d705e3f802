import SeriesQuery.Text.Segment
import SeriesQuery.Time.Context

/-!
# Placeholders

The reserved names of a template and their values. Rendering replaces the placeholders of a template
by their values and each line break by a space, in one pass over a segmentation that the template
alone fixes (`templateToken.segments`); no value is looked at again.

Two of the values are themselves templates over the others: the bucket expression `timeSeries` and
the range condition `timeFilter`. They are rendered with the six base values (`Symbols.value`).
-/

namespace SeriesQuery

open Text

/-- A reserved name. -/
inductive Placeholder
  /-- The start of a row's time bucket, in milliseconds. -/
  | timeSeries
  /-- The condition that a row lies in the range. -/
  | timeFilter
  | dateTimeColumn
  | dateColumn
  | table
  | lower
  | upper
  | interval
  deriving DecidableEq, Repr

namespace Placeholder

def all : List Placeholder :=
  [timeSeries, timeFilter, dateTimeColumn, dateColumn, table, lower, upper, interval]

def spelling : Placeholder → Text
  | timeSeries => "$timeSeries".toList
  | timeFilter => "$timeFilter".toList
  | dateTimeColumn => "$dateTimeCol".toList
  | dateColumn => "$timeCol".toList
  | table => "$table".toList
  | lower => "$from".toList
  | upper => "$to".toList
  | interval => "$interval".toList

/-- The placeholder of a spelling. -/
def ofSpelling? (s : Text) : Option Placeholder := all.find? (·.spelling = s)

theorem spelling_ne_nil (p : Placeholder) : p.spelling ≠ [] := by cases p <;> decide

end Placeholder

/-- The three ways to end a line. -/
inductive LineBreak
  | crlf
  | cr
  | lf
  deriving DecidableEq, Repr

namespace LineBreak

/-- The line breaks, the one of two characters first. -/
def all : List LineBreak := [crlf, cr, lf]

def spelling : LineBreak → Text
  | crlf => ['\r', '\n']
  | cr => ['\r']
  | lf => ['\n']

end LineBreak

/-- What rendering replaces. -/
inductive TemplateToken
  | placeholder (p : Placeholder)
  | lineBreak (b : LineBreak)
  deriving DecidableEq, Repr

namespace TemplateToken

def all : List TemplateToken :=
  Placeholder.all.map placeholder ++ LineBreak.all.map lineBreak

def spell : TemplateToken → Text
  | placeholder p => p.spelling
  | lineBreak b => b.spelling

/-- A token at the front of a text, and what follows it. -/
def read? (s : Text) : Option (TemplateToken × Text) :=
  all.findSome? fun t => (after? t.spell s).map fun rest => (t, rest)

end TemplateToken

/-- Placeholders and line breaks. -/
def templateToken : TokenRule TemplateToken where
  read? := TemplateToken.read?
  spell := TemplateToken.spell
  spell_ne_nil {_ t _} _ := by
    cases t with
    | placeholder p => exact p.spelling_ne_nil
    | lineBreak b => cases b <;> simp [TemplateToken.spell, LineBreak.spelling]
  spell_append h := by
    obtain ⟨t, _, ht⟩ := List.exists_of_findSome?_eq_some h
    obtain ⟨rest, hr, he⟩ := Option.map_eq_some_iff.1 ht
    cases he
    exact (after?_eq_some_iff.1 hr).symm

/-- The template with each placeholder replaced by its value and each line break by a space. -/
def renderWith (value : Placeholder → Text) (template : Text) : Text :=
  templateToken.substitute
    (fun
      | .placeholder p => value p
      | .lineBreak _ => [' '])
    template

/-- The template of the bucket expression. -/
def timeSeriesTemplate : Text :=
  "(intDiv(toUInt32($dateTimeCol), $interval) * $interval) * 1000".toList

/-- The template of the range condition: a range that ends at the present is bounded below only. -/
def timeFilterTemplate (upperIsNow : Bool) : Text :=
  if upperIsNow then
    "$timeCol >= toDate($from) AND $dateTimeCol >= toDateTime($from)".toList
  else
    "$timeCol BETWEEN toDate($from) AND toDate($to) ".toList
      ++ "AND $dateTimeCol BETWEEN toDateTime($from) AND toDateTime($to)".toList

/-- What the values of the placeholders are built from. -/
structure Symbols where
  time : TimeContext
  table : Text
  dateColumn : Text
  dateTimeColumn : Text
  deriving DecidableEq, Repr

namespace Symbols

/-- The values of the six base placeholders; the two derived ones stand for themselves. -/
def baseValue (s : Symbols) : Placeholder → Text
  | .table => s.table
  | .lower => decimal s.time.lower
  | .upper => decimal s.time.upper
  | .dateColumn => s.dateColumn
  | .dateTimeColumn => s.dateTimeColumn
  | .interval => decimal s.time.interval
  | p => p.spelling

/-- The value of a placeholder. -/
def value (s : Symbols) : Placeholder → Text
  | .timeSeries => renderWith s.baseValue timeSeriesTemplate
  | .timeFilter => renderWith s.baseValue (timeFilterTemplate s.time.upperIsNow)
  | p => s.baseValue p

/-- The template with all placeholders filled in, on one line. -/
def render (s : Symbols) (template : Text) : Text := renderWith s.value template

end Symbols

end SeriesQuery
