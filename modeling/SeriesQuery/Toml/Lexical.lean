import SeriesQuery.Text.Basic

/-!
# TOML: blanks, line ends and comments

The pieces of a TOML document that mean nothing: spaces and tabs, line ends (a line feed, which a
carriage return may precede), and comments from `#` to the end of the line.
-/

namespace SeriesQuery.Toml

open Text

/-- A space or a tab. -/
def isSpace (c : Char) : Bool := c = ' ' || c = '\t'

/-- A character that may stand in a comment or a string: any but the control characters of ASCII, of
which only the tab may. -/
def isPlain (c : Char) : Bool := c = '\t' || (0x20 ≤ c.toNat && c.toNat ≠ 0x7f)

def skipSpaces (s : Text) : Text := s.dropWhile isSpace

/-- The text behind a line end. -/
def afterNewline? : Text → Option Text
  | '\n' :: r => some r
  | '\r' :: '\n' :: r => some r
  | _ => none

/-- The text without the spaces and line ends at its front. -/
def skipBlankLines : Text → Text
  | [] => []
  | '\r' :: '\n' :: r => skipBlankLines r
  | c :: r => if c = '\n' || isSpace c then skipBlankLines r else c :: r

/-- The text without a comment at its front. -/
def skipComment : Text → Text
  | '#' :: r => r.dropWhile isPlain
  | s => s

/-- The text behind the rest of a line that holds only spaces and a comment. -/
def afterLine? (s : Text) : Option Text :=
  match skipComment (skipSpaces s) with
  | [] => some []
  | r => afterNewline? r

/-- The text without the spaces, line ends and comments at its front. -/
def skipGaps : (inComment : Bool) → Text → Text
  | _, [] => []
  | _, '\r' :: '\n' :: r => skipGaps false r
  | inComment, c :: r =>
    if c = '\n' then skipGaps false r
    else if inComment && isPlain c then skipGaps true r
    else if !inComment && isSpace c then skipGaps false r
    else if !inComment && c = '#' then skipGaps true r
    else c :: r

end SeriesQuery.Toml
