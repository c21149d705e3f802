import SeriesQuery.Text.Blank

/-!
# Comments

The text behind a call that has no further clauses may hold comments only: from `--` to the end of
the line, and from `/*` to the next `*/`, with blanks around them. `isOnlyComments` reads it one
character at a time.
-/

namespace SeriesQuery.Macro

/-- Where a scan stands with respect to comments. -/
inductive CommentState
  /-- Between comments. -/
  | between
  | afterDash
  | afterSlash
  | inLine
  | inBlock
  /-- In a block comment, right behind a star. -/
  | afterStar
  deriving DecidableEq, Repr

namespace CommentState

/-- The state after one more character, unless that stands outside comments and is no blank. -/
def advance : CommentState → Char → Option CommentState
  | between, c =>
    if Text.isBlank c then some between
    else if c = '-' then some afterDash
    else if c = '/' then some afterSlash
    else none
  | afterDash, c => if c = '-' then some inLine else none
  | afterSlash, c => if c = '*' then some inBlock else none
  | inLine, c => if c = '\n' then some between else some inLine
  | inBlock, c => if c = '*' then some afterStar else some inBlock
  | afterStar, c =>
    if c = '/' then some between else if c = '*' then some afterStar else some inBlock

/-- Whether a text may end here: a comment to the end of the line needs no line feed. -/
def isComplete : CommentState → Bool
  | between | inLine => true
  | _ => false

end CommentState

/-- Whether a text holds blanks and comments only. -/
def isOnlyComments (s : Text) : Bool :=
  (s.foldlM CommentState.advance .between).any CommentState.isComplete

end SeriesQuery.Macro
