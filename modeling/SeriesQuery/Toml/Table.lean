import SeriesQuery.Data

/-!
# TOML: tables

How the keys and headers of a document build its tables. Every table comes to be in one of three
ways (`TableForm`), and that decides what may still be added to it. A table of a header is closed
to dotted keys and to a second header; one that a longer header implied may get its own header
later; one that dotted keys made may only grow by dotted keys from the same place.
-/

namespace SeriesQuery.Toml

/-- How a table came to be. -/
inductive TableForm
  /-- By its own header, or as an element of an array of tables. -/
  | header
  /-- By a longer header that passes through it. -/
  | parent
  /-- By dotted keys. -/
  | dotted
  deriving DecidableEq, Repr

/-- What a key of a table stands for while the document is read. -/
inductive Item
  | leaf (d : Data)
  | table (form : TableForm) (entries : List (Text × Item))
  /-- An array of tables, of which the last one is still open. -/
  | tables (tables : List (List (Text × Item)))

/-- The keys of a table. -/
abbrev Entries := List (Text × Item)

namespace Entries

/-- The entries with an item under a key, in the place of the one before if there is one. -/
def put (entries : Entries) (key : Text) (item : Item) : Entries :=
  if (entries.lookup key).isSome then
    entries.map fun (k, i) => if k = key then (k, item) else (k, i)
  else entries ++ [(key, item)]

/-- The entries with a change to the table at a path. Tables on the way that do not exist come to be
as parents; in an array of tables the way goes through its last one. -/
def alterAt (change : Entries → Option Entries) : (path : List Text) → Entries → Option Entries
  | [], entries => change entries
  | key :: path, entries =>
    match entries.lookup key with
    | none => (alterAt change path []).map fun sub => entries.put key (.table .parent sub)
    | some (.table form sub) =>
      (alterAt change path sub).map fun sub => entries.put key (.table form sub)
    | some (.tables tables) =>
      (alterAt change path (tables.getLast?.getD [])).map fun sub =>
        entries.put key (.tables (tables.dropLast ++ [sub]))
    | some (.leaf _) => none

/-- The entries with a table that a header opens. -/
def openTable (key : Text) (entries : Entries) : Option Entries :=
  match entries.lookup key with
  | none => some (entries.put key (.table .header []))
  | some (.table .parent sub) => some (entries.put key (.table .header sub))
  | some _ => none

/-- The entries with one more element of an array of tables. -/
def openElement (key : Text) (entries : Entries) : Option Entries :=
  match entries.lookup key with
  | none => some (entries.put key (.tables [[]]))
  | some (.tables tables) => some (entries.put key (.tables (tables ++ [[]])))
  | some _ => none

/-- The entries with a value under a key that is new. -/
def addLeaf (key : Text) (d : Data) (entries : Entries) : Option Entries :=
  if (entries.lookup key).isSome then none else some (entries.put key (.leaf d))

/-- The entries with a value under a dotted key, of which `path` is all but the last part. The table
that the last part is added to has to be one of dotted keys. -/
def addDotted (key : Text) (d : Data) : (path : List Text) → Entries → Option Entries
  | [], entries => entries.addLeaf key d
  | part :: path, entries =>
    match entries.lookup part with
    | none => (addDotted key d path []).map fun sub => entries.put part (.table .dotted sub)
    | some (.table form sub) =>
      if form = .header ∨ (form = .parent ∧ path = []) then none
      else (addDotted key d path sub).map fun sub => entries.put part (.table form sub)
    | some (.tables tables) =>
      if path = [] then none
      else
        (addDotted key d path (tables.getLast?.getD [])).map fun sub =>
          entries.put part (.tables (tables.dropLast ++ [sub]))
    | some (.leaf _) => none

end Entries

mutual

/-- The data that an item stands for. -/
def Item.toData : Item → Data
  | .leaf d => d
  | .table _ entries => .record (fieldsOf entries)
  | .tables tables => .list (recordsOf tables)

/-- The fields that the entries of a table stand for. -/
def fieldsOf : List (Text × Item) → List (Text × Data)
  | [] => []
  | (key, item) :: rest => (key, item.toData) :: fieldsOf rest

/-- The records that the tables of an array stand for. -/
def recordsOf : List (List (Text × Item)) → List Data
  | [] => []
  | entries :: rest => .record (fieldsOf entries) :: recordsOf rest

end

end SeriesQuery.Toml
