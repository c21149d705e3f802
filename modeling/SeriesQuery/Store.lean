import SeriesQuery.Text.Basic

/-!
# Stores

A finite collection of values under distinct names. Inserting under a name that is taken replaces
what was there; `get?_insert`, `get?_erase` and `get?_empty` say what each operation does to the
view `get?`.
-/

namespace SeriesQuery

/-- Values under distinct names. -/
structure Store (α : Type) where
  entries : List (Text × α) := []
  distinct : (entries.map Prod.fst).Nodup := by simp

namespace Store

variable {α : Type}

def empty : Store α := {}

def get? (s : Store α) (name : Text) : Option α := s.entries.lookup name

def size (s : Store α) : Nat := s.entries.length

def erase (s : Store α) (name : Text) : Store α where
  entries := s.entries.filter (·.1 ≠ name)
  distinct := s.distinct.sublist (List.filter_sublist.map _)

def insert (s : Store α) (name : Text) (a : α) : Store α where
  entries := (name, a) :: (s.erase name).entries
  distinct := by
    rw [List.map_cons, List.nodup_cons]
    exact ⟨by simp [erase], (s.erase name).distinct⟩

/-- The store with these entries, of which the later ones replace the earlier. -/
def ofList (entries : List (Text × α)) : Store α :=
  entries.foldl (fun s (name, a) => s.insert name a) empty

@[simp]
theorem get?_empty (name : Text) : (empty : Store α).get? name = none := rfl

/-- An erased name has no value, and all others keep theirs. -/
theorem get?_erase (s : Store α) (name other : Text) :
    (s.erase name).get? other = if other = name then none else s.get? other := by
  obtain ⟨entries, _⟩ := s
  simp only [erase, get?]
  induction entries with
  | nil => simp
  | cons e r ih => grind

/-- A name that is inserted has its new value, and all others keep theirs. -/
theorem get?_insert (s : Store α) (name other : Text) (a : α) :
    (s.insert name a).get? other = if other = name then some a else s.get? other := by
  have := get?_erase s name other
  simp only [get?, insert, List.lookup_cons] at this ⊢
  by_cases h : other = name
  · simp [h]
  · simpa [h, beq_false_of_ne h] using this

end Store

end SeriesQuery
