import SeriesQuery.Store
import SeriesQuery.Variable.Basic
import SeriesQuery.Variable.Reference

/-!
# Substitution of variables

`substitute` replaces the references of a text whose names are known by their values and leaves all
others as they are, placeholders among them. A request can set values of its own for names
(`Scope`); these go before the current values of the registered variables. The registered variable
governs how a value is written, and a name that only the scope knows is written as a plain variable.
-/

namespace SeriesQuery

/-- The registered variables, each under its name. -/
abbrev Registry := Store Variable

/-- The values that one request sets. -/
abbrev Scope := Store Value

/-- How the value of a variable is written in a text. -/
abbrev Format := Variable → Value → Text

/-- Values as they are. -/
def Format.plain : Format := fun _ value => value.display

/-- Values as query text. -/
def Format.query : Format := Variable.interpolate

namespace Registry

/-- The registry of these variables, of which the later ones replace the earlier of their names. -/
def ofVariables (vs : List Variable) : Registry :=
  Store.ofList (vs.map fun v => (v.name, v))

variable (registry : Registry) (scope : Scope)

/-- The value under a name: that of the request, else that of the registered variable. -/
def value? (name : Text) : Option Value :=
  (scope.get? name).or ((registry.get? name).map Variable.current)

/-- The registered variable of a name, or a plain one with the value. -/
def variableOf (name : Text) (value : Value) : Variable :=
  (registry.get? name).getD { name, current := value }

/-- What a reference to a known name is replaced by. -/
def textOf? (format : Format) (name : Text) : Option Text :=
  (registry.value? scope name).map fun value =>
    let v := registry.variableOf name value
    format v (v.expandAll value)

/-- What a reference stands for in a text: its value, or itself when its name is not known. -/
def textOf (format : Format) (r : Reference) : Text :=
  (registry.textOf? scope format r.name).getD r.spell

/-- The text with its references to known names replaced. -/
def substitute (format : Format) (text : Text) : Text :=
  reference.substitute (registry.textOf scope format) text

variable {registry scope} {r : Reference}

/-- A reference to a registered variable stands for its value in the form of that variable. -/
theorem textOf_of_get? {v : Variable} {value : Value} (format : Format)
    (hget : registry.get? r.name = some v) (hvalue : registry.value? scope r.name = some value) :
    registry.textOf scope format r = format v (v.expandAll value) := by
  simp only [textOf, textOf?, hvalue, variableOf, hget, Option.map_some, Option.getD_some]

/-- A reference to an unknown name stands for itself. -/
theorem textOf_of_value?_eq_none (format : Format) (h : registry.value? scope r.name = none) :
    registry.textOf scope format r = r.spell := by
  simp only [textOf, textOf?, h, Option.map_none, Option.getD_none]

end Registry

end SeriesQuery
