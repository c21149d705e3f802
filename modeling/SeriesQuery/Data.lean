import SeriesQuery.Text.Basic

/-!
# Structured data

What a settings file or a request is read into before its meaning is known: texts, numbers, lists
and records of named fields. A structure is taken out of it field by field (`Data.fields?`), either
from a record or from a list of the fields in their order; a field that is absent takes its
default, and one that is present must have the right shape.
-/

namespace SeriesQuery

/-- A value without a meaning yet. -/
inductive Data
  | null
  | boolean (b : Bool)
  | integer (n : Int)
  /-- A number that is not written as an integer, as it is written; no setting takes one. -/
  | real (spelling : Text)
  | text (s : Text)
  | list (items : List Data)
  | record (fields : List (Text × Data))
  deriving Repr

/-- What becomes of the elements of a list behind the last field of a structure. -/
inductive Surplus
  | refused
  | ignored
  deriving DecidableEq, Repr

namespace Data

def text? : Data → Option Text
  | text s => some s
  | _ => none

def boolean? : Data → Option Bool
  | boolean b => some b
  | _ => none

/-- An integer that fits an unsigned word of 32 bits. -/
def word? : Data → Option UInt32
  | integer n => if 0 ≤ n ∧ n ≤ 4294967295 then some (.ofNat n.toNat) else none
  | _ => none

def list? {α : Type} (element? : Data → Option α) : Data → Option (List α)
  | list items => items.mapM element?
  | _ => none

/-- A value, or nothing for null. -/
def nullable? {α : Type} (value? : Data → Option α) : Data → Option (Option α)
  | null => some none
  | d => (value? d).map some

/-- The fields of a structure: those of a record, or the elements of a list named in order. -/
def fields? (surplus : Surplus) (order : List Text) : Data → Option (List (Text × Data))
  | record fields => some fields
  | list items =>
    if surplus = .refused ∧ order.length < items.length then none else some (order.zip items)
  | _ => none

end Data

/-- A field that has to be present. -/
def requiredField {α : Type} (fields : List (Text × Data)) (name : String)
    (value? : Data → Option α) : Option α :=
  (fields.lookup name.toList).bind value?

/-- A field that may be absent. -/
def optionalField {α : Type} (fields : List (Text × Data)) (name : String)
    (value? : Data → Option α) (default : α) : Option α :=
  match fields.lookup name.toList with
  | none => some default
  | some d => value? d

end SeriesQuery
