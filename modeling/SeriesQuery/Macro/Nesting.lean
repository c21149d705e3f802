import SeriesQuery.Text.Basic

/-!
# Nesting

How far a scan of query text is inside parentheses and literals. Only two things nest: parentheses
outside literals, and literals between single quotes, in which a backslash keeps the next character
from ending the literal. `advance` takes one character; it has no answer exactly at a closing
parenthesis with nothing open (`advance_eq_none_iff`).

A text is `Closed` when a scan of it from the outermost level ends there again, without such a
parenthesis on its way.
-/

namespace SeriesQuery

/-- Where a scan stands with respect to literals. -/
inductive LiteralMode
  | outside
  | inside
  | escaped
  deriving DecidableEq, Repr

/-- The open parentheses and the literal that a scan is in. -/
structure Nesting where
  depth : Nat := 0
  mode : LiteralMode := .outside
  deriving DecidableEq, Repr

namespace Nesting

/-- The outermost level: nothing is open. -/
def top : Nesting := {}

/-- The state after one more character, unless that closes a parenthesis that is not open. -/
def advance (n : Nesting) (c : Char) : Option Nesting :=
  match n.mode with
  | .escaped => some { n with mode := .inside }
  | .inside =>
    if c = '\\' then some { n with mode := .escaped }
    else if c = '\'' then some { n with mode := .outside }
    else some n
  | .outside =>
    if c = '\'' then some { n with mode := .inside }
    else if c = '(' then some { n with depth := n.depth + 1 }
    else if c = ')' then if n.depth = 0 then none else some { n with depth := n.depth - 1 }
    else some n

/-- The state after a text, unless it closes a parenthesis that is not open. -/
def scan (n : Nesting) (s : Text) : Option Nesting := s.foldlM advance n

/-- Whether a text leaves the outermost level as it found it. -/
def Closed (s : Text) : Prop := top.scan s = some top

instance (s : Text) : Decidable (Closed s) := inferInstanceAs (Decidable (_ = _))

@[simp]
theorem scan_nil (n : Nesting) : n.scan [] = some n := rfl

theorem scan_cons (n : Nesting) (c : Char) (s : Text) :
    n.scan (c :: s) = (n.advance c).bind fun m => m.scan s := rfl

/-- A scan of two texts goes on behind the first. -/
theorem scan_append (n : Nesting) (s t : Text) :
    n.scan (s ++ t) = (n.scan s).bind fun m => m.scan t := by
  simp [scan, List.foldlM_append]

/-- A scan stops only at a closing parenthesis outside literals with nothing open. -/
theorem advance_eq_none_iff {n : Nesting} {c : Char} : n.advance c = none ↔ n = top ∧ c = ')' := by
  obtain ⟨depth, mode⟩ := n
  cases mode <;> simp only [advance, top, Nesting.mk.injEq] <;> grind

end Nesting

end SeriesQuery
