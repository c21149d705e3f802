import SeriesQuery.Text.Basic

/-!
# Literals

A text between single quotes, in which a backslash stands before each quote and each backslash of
the text. `unescape?` reads the inside of a literal back; it refuses a bare quote, which would end
the literal, and a backslash with nothing behind it.
-/

namespace SeriesQuery.Text

/-- The inside of the literal of a text. -/
def escape (s : Text) : Text :=
  s.flatMap fun c => if c = '\\' ∨ c = '\'' then ['\\', c] else [c]

/-- The literal of a text. -/
def quote (s : Text) : Text := '\'' :: (escape s ++ ['\''])

/-- The text that the inside of a literal stands for. -/
def unescape? : Text → Option Text
  | [] => some []
  | ['\\'] => none
  | c :: d :: r =>
    if c = '\\' then (unescape? r).map (d :: ·)
    else if c = '\'' then none
    else (unescape? (d :: r)).map (c :: ·)
  | [c] => if c = '\'' then none else some [c]

@[simp]
theorem escape_nil : escape [] = [] := rfl

theorem escape_cons (c : Char) (s : Text) :
    escape (c :: s) = (if c = '\\' ∨ c = '\'' then ['\\', c] else [c]) ++ escape s := rfl

/-- An ordinary character in front is read as itself. -/
theorem unescape?_cons {c : Char} (hb : c ≠ '\\') (hq : c ≠ '\'') (s : Text) :
    unescape? (c :: s) = (unescape? s).map (c :: ·) := by
  cases s with
  | nil => simp_all [unescape?]
  | cons d r => simp [unescape?, hb, hq]

/-- A literal reads back as the text it was written for. -/
@[simp]
theorem unescape?_escape (s : Text) : unescape? (escape s) = some s := by
  induction s with
  | nil => rfl
  | cons c r ih =>
    rw [escape_cons]
    split
    · simp [unescape?, ih]
    · next h =>
      simp only [not_or] at h
      simp [unescape?_cons h.1 h.2, ih]

end SeriesQuery.Text
