import SeriesQuery.Text.Segment
import SeriesQuery.Text.Word

/-!
# References

A text refers to a variable as `$name`, `${name}` or `[[name]]`, where the name is a word. Which
characters of a text are references is fixed by the text alone (`reference.segments`).
-/

namespace SeriesQuery

open Text

/-- How a reference is written around its name. -/
inductive ReferenceForm
  | bare
  | braced
  | bracketed
  deriving DecidableEq, Repr

namespace ReferenceForm

def opening : ReferenceForm → Text
  | bare => "$".toList
  | braced => "$\x7b".toList
  | bracketed => "[[".toList

def closing : ReferenceForm → Text
  | bare => []
  | braced => "\x7d".toList
  | bracketed => "]]".toList

/-- The forms; no text opens two of them with a word behind. -/
def all : List ReferenceForm := [bare, braced, bracketed]

end ReferenceForm

/-- A reference to the variable of a name. -/
structure Reference where
  form : ReferenceForm
  name : Text
  deriving DecidableEq, Repr

namespace Reference

def spell (r : Reference) : Text := r.form.opening ++ r.name ++ r.form.closing

/-- A reference of one form at the front of a text, and what follows it. -/
def readForm? (form : ReferenceForm) (s : Text) : Option (Reference × Text) :=
  match after? form.opening s with
  | none => none
  | some r =>
    if leadingWord r = [] then none
    else (after? form.closing (afterWord r)).map fun rest => (⟨form, leadingWord r⟩, rest)

/-- A reference at the front of a text, and what follows it. -/
def read? (s : Text) : Option (Reference × Text) :=
  ReferenceForm.all.findSome? fun form => readForm? form s

/-- A reference of a form is read from its spelling. -/
theorem spell_append_of_readForm? {form : ReferenceForm} {s : Text} {r : Reference} {rest : Text}
    (h : readForm? form s = some (r, rest)) : r.spell ++ rest = s := by
  simp only [readForm?] at h
  split at h
  · simp at h
  · next u hu =>
    split at h
    · simp at h
    · obtain ⟨t, ht, he⟩ := Option.map_eq_some_iff.1 h
      cases he
      have := leadingWord_append_afterWord u
      rw [after?_eq_some_iff.1 ht] at this
      have hs : s = form.opening ++ (leadingWord u ++ (form.closing ++ rest)) := by
        rw [this]
        exact after?_eq_some_iff.1 hu
      rw [hs]
      simp [spell]

/-- The name in a reference is a word. -/
theorem isWordChar_of_mem_name {s rest : Text} {r : Reference} (h : read? s = some (r, rest))
    {c : Char} (hc : c ∈ r.name) : isWordChar c := by
  obtain ⟨form, _, hform⟩ := List.exists_of_findSome?_eq_some h
  simp only [readForm?] at hform
  split at hform
  · cases hform
  · split at hform
    · cases hform
    · obtain ⟨t, _, he⟩ := Option.map_eq_some_iff.1 hform
      cases he
      exact isWordChar_of_mem_leadingWord hc

end Reference

/-- References to variables. -/
def reference : TokenRule Reference where
  read? := Reference.read?
  spell := Reference.spell
  spell_ne_nil {_ r _} _ := by
    obtain ⟨form, name⟩ := r
    cases form <;> simp [Reference.spell, ReferenceForm.opening]
  spell_append h := by
    obtain ⟨form, _, hf⟩ := List.exists_of_findSome?_eq_some h
    exact Reference.spell_append_of_readForm? hf

end SeriesQuery
