import SeriesQuery.Error
import SeriesQuery.Macro.Nesting
import SeriesQuery.Text.Blank

/-!
# Arguments

The arguments of a macro call are the pieces between its commas at the outermost level, trimmed.
`readArguments` refuses a blank piece, a closing parenthesis with nothing open, and an end inside a
literal or a parenthesis; of several faults the leftmost is reported. A text of blanks has no
arguments.
-/

namespace SeriesQuery.Macro

open Text

/-- One piece, trimmed; a blank piece is refused. -/
def readArgument (input piece : Text) : Except QueryError Text :=
  if trim piece = [] then .error (.malformed (.emptyArgument input)) else .ok (trim piece)

/-- The arguments from a position on, where `piece` is the current one so far, backwards. -/
def readArgumentsFrom (input : Text) :
    (position : Nat) → Nesting → (piece : Text) → Text → Except QueryError (List Text)
  | _, n, piece, [] =>
    if n.mode ≠ .outside then .error (.malformed (.openLiteral input))
    else if n.depth ≠ 0 then .error (.malformed (.openParenthesis input))
    else do return [← readArgument input piece.reverse]
  | position, n, piece, c :: r =>
    if n = .top ∧ c = ',' then do
      let argument ← readArgument input piece.reverse
      return argument :: (← readArgumentsFrom input (position + c.utf8Size) n [] r)
    else
      match n.advance c with
      | none => .error (.malformed (.unexpectedClose position input))
      | some m => readArgumentsFrom input (position + c.utf8Size) m (c :: piece) r

/-- The top-level arguments of a call. -/
def readArguments (input : Text) : Except QueryError (List Text) :=
  if trim input = [] then .ok [] else readArgumentsFrom input 0 .top [] input

end SeriesQuery.Macro
