import SeriesQuery.Data

/-!
# JSON texts

Structured data written as JSON, on one line (`compact`) or indented (`indented`). In a string only
quotes, backslashes and the control characters below the space are escaped.
-/

namespace SeriesQuery.Json

open Text

/-- A hexadecimal digit in lower case. -/
def hexDigit (n : Nat) : Char := Nat.digitChar (n % 16)

/-- A character inside a string. -/
def escapeChar (c : Char) : Text :=
  match c with
  | '"' => "\\\"".toList
  | '\\' => "\\\\".toList
  | '\x08' => "\\b".toList
  | '\t' => "\\t".toList
  | '\n' => "\\n".toList
  | '\x0c' => "\\f".toList
  | '\r' => "\\r".toList
  | c =>
    if c.toNat < 0x20 then "\\u00".toList ++ [hexDigit (c.toNat / 16), hexDigit c.toNat] else [c]

/-- A text as a string. -/
def string (s : Text) : Text := '"' :: (s.flatMap escapeChar ++ ['"'])

/-- Data that holds no other data; a list or record counts as empty. -/
def scalar : Data → Text
  | .null => "null".toList
  | .boolean b => (if b then "true" else "false").toList
  | .integer n => decimal n
  | .real spelling => spelling
  | .text s => string s
  | .list _ => "[]".toList
  | .record _ => "\x7b\x7d".toList

mutual

/-- Data on one line, without blanks. -/
def compact : Data → Text
  | .list items => '[' :: (join [','] (compactItems items) ++ [']'])
  | .record fields => '\x7b' :: (join [','] (compactFields fields) ++ ['\x7d'])
  | d => scalar d

def compactItems : List Data → List Text
  | [] => []
  | d :: rest => compact d :: compactItems rest

def compactFields : List (Text × Data) → List Text
  | [] => []
  | (name, d) :: rest => (string name ++ [':'] ++ compact d) :: compactFields rest

end

/-- Lines at one level of indentation between brackets, the closing one a level further out. -/
def block (opening closing : Char) (level : Nat) (lines : List Text) : Text :=
  let indent (n : Nat) : Text := '\n' :: List.replicate (2 * n) ' '
  let body := join [','] (lines.map fun line => indent (level + 1) ++ line)
  opening :: (body ++ indent level ++ [closing])

mutual

/-- Data with every item and field on a line of its own, two spaces further in for each level. -/
def indentedAt (level : Nat) : Data → Text
  | .list (d :: rest) => block '[' ']' level (indentedItems (level + 1) (d :: rest))
  | .record (field :: rest) =>
    block '\x7b' '\x7d' level (indentedFields (level + 1) (field :: rest))
  | d => scalar d

def indentedItems (level : Nat) : List Data → List Text
  | [] => []
  | d :: rest => indentedAt level d :: indentedItems level rest

def indentedFields (level : Nat) : List (Text × Data) → List Text
  | [] => []
  | (name, d) :: rest =>
    (string name ++ ": ".toList ++ indentedAt level d) :: indentedFields level rest

end

/-- Data on several lines. -/
def indented (d : Data) : Text := indentedAt 0 d

end SeriesQuery.Json
