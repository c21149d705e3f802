import SeriesQuery.Text.Literal

/-!
# Variables

A template variable has a current value, one text or several, and declares the options it can
take. The option `$__all` stands for all others. In query text a value is written plainly
(`Value.display`) or, for a variable that can take several values, each value on its own as a bare
number or a literal (`Variable.interpolate`).
-/

namespace SeriesQuery

open Text

/-- The value of a variable. -/
inductive Value
  | single (text : Text)
  | multi (texts : List Text)
  deriving DecidableEq, Repr

/-- The option that stands for every other one. -/
def allOptions : Text := "$__all".toList

namespace Value

/-- Whether the value is the option that stands for every other one. -/
def isAll : Value → Bool
  | single text => text = allOptions
  | multi texts => texts = [allOptions]

/-- The value as it is, several texts with commas between them. -/
def display : Value → Text
  | single text => text
  | multi texts => join [','] texts

end Value

/-- A template variable. -/
structure Variable where
  name : Text
  /-- Whether several options can be chosen at once. -/
  multi : Bool := false
  /-- Whether all options can be chosen at once. -/
  includeAll : Bool := false
  options : List Text := []
  current : Value := .single []
  deriving DecidableEq, Repr

namespace Variable

/-- The declared options other than the one that stands for all. -/
def optionValues (v : Variable) : List Text := v.options.filter (· ≠ allOptions)

/-- Whether a text is a number in ASCII digits. -/
def isNumeral (s : Text) : Bool := s ≠ [] && s.all Char.isDigit

/-- Whether every option is a number, so that values can stand bare. -/
def isNumeric (v : Variable) : Bool := v.optionValues.all isNumeral

/-- One value in query text: bare for a numeric variable, a literal otherwise. -/
def escapeText (v : Variable) (text : Text) : Text := if v.isNumeric then text else quote text

/-- A value in query text: as it is, unless the variable can take several values. -/
def interpolate (v : Variable) (value : Value) : Text :=
  if v.multi || v.includeAll then
    match value with
    | .single text => v.escapeText text
    | .multi texts => join [','] (texts.map v.escapeText)
  else value.display

/-- The value with the option for all spelled out, if the variable declares options. -/
def expandAll (v : Variable) (value : Value) : Value :=
  if value.isAll && v.options ≠ [] then .multi v.optionValues else value

/-- A variable is numeric if all of its options are numerals. -/
theorem isNumeric_iff {v : Variable} : v.isNumeric ↔ ∀ o ∈ v.optionValues, isNumeral o :=
  List.all_eq_true

/-- A variable that can take several values writes one value as itself or as a literal. -/
theorem interpolate_single {v : Variable} (hv : v.multi || v.includeAll) (text : Text) :
    v.interpolate (.single text) = v.escapeText text :=
  if_pos hv

/-- A variable that can take several values writes each on its own. -/
theorem interpolate_multi {v : Variable} (hv : v.multi || v.includeAll) (values : List Text) :
    v.interpolate (.multi values) = join [','] (values.map v.escapeText) :=
  if_pos hv

end Variable

end SeriesQuery
