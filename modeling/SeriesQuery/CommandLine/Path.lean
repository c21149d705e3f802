import SeriesQuery.Text.Basic

/-!
# Paths

A place in a tree of folders is the list of names on the way to it from the root. A path leads to a
place part by part, the parts being what stands between slashes: an empty part and a single point
stay, two points go up, and any other part is a name to go down by. Every part but the last has to
lead to a folder, even if a later one leaves that folder again; what lies at the last, if anything,
is no matter of the path.
-/

namespace SeriesQuery.CommandLine

open Text

/-- The names on the way to a place, the outermost first. -/
abbrev Place := List Text

/-- The number of bytes that a text takes in UTF-8. -/
def byteCount (s : Text) : Nat := s.foldl (fun n c => n + c.utf8Size) 0

/-- The most bytes that a path can have. -/
def maxPathBytes : Nat := 4095

/-- The most bytes that a name can have. -/
def maxNameBytes : Nat := 255

namespace Place

/-- Where one part of a path leads from a folder. Nothing lies above the root, which stays. -/
def step (folder : Place) (part : Text) : Place :=
  if part = [] ∨ part = ['.'] then folder
  else if part = ['.', '.'] then folder.dropLast
  else folder ++ [part]

/-- The folder that one part of a path leads to from a folder. -/
def enter? (isFolder : Place → Bool) (folder : Place) (part : Text) : Option Place :=
  let place := folder.step part
  if isFolder place then some place else none

/-- Where a path leads from a folder, or from the root if it starts with a slash. -/
def follow? (isFolder : Place → Bool) (folder : Place) (path : Text) : Option Place :=
  if path = [] ∨ maxPathBytes < byteCount path then none
  else do
    let parts := splitAtEach '/' path
    let start := if path.head? = some '/' then [] else folder
    let folder ← parts.dropLast.foldlM (enter? isFolder) start
    return folder.step (parts.getLast?.getD [])

@[simp]
theorem follow?_nil (isFolder : Place → Bool) (folder : Place) :
    follow? isFolder folder [] = none := by
  simp [follow?]

end Place

end SeriesQuery.CommandLine
