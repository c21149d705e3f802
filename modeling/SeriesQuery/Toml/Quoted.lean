import SeriesQuery.Toml.Lexical

/-!
# TOML: strings

The four kinds of strings. Basic strings stand between double quotes and have escapes; literal
ones stand between single quotes and have none. Tripled quotes open a string over several lines: a
line end right behind them does not count, every other one is a line feed, and up to two quotes
may stand right before the closing ones. In a basic string a backslash at the end of a line joins
it to the next character that is neither a space nor a line end.
-/

namespace SeriesQuery.Toml

open Text

/-- The value of a hexadecimal digit. -/
def hexValue? (c : Char) : Option Nat :=
  if c.isDigit then some (c.toNat - '0'.toNat)
  else if 'a' ≤ c ∧ c ≤ 'f' then some (c.toNat - 'a'.toNat + 10)
  else if 'A' ≤ c ∧ c ≤ 'F' then some (c.toNat - 'A'.toNat + 10)
  else none

/-- The character whose code point is spelled by the first `width` hexadecimal digits. -/
def codePoint? (width : Nat) (s : Text) : Option Char := do
  let digits ← (s.take width).mapM hexValue?
  let n := digits.foldl (fun n d => n * 16 + d) 0
  if digits.length = width ∧ n.isValidChar then some (Char.ofNat n) else none

/-- The character that an escape stands for, and how many characters it takes behind the
backslash. -/
def escaped? : Text → Option (Char × Nat)
  | [] => none
  | c :: r =>
    match c with
    | 'b' => some ('\x08', 1)
    | 't' => some ('\t', 1)
    | 'n' => some ('\n', 1)
    | 'f' => some ('\x0c', 1)
    | 'r' => some ('\r', 1)
    | '"' => some ('"', 1)
    | '\\' => some ('\\', 1)
    | 'u' => (codePoint? 4 r).map fun c => (c, 5)
    | 'U' => (codePoint? 8 r).map fun c => (c, 9)
    | _ => none

/-- The inside of a basic string on one line and the text behind its closing quote, where the first
`skip` characters belong to an escape already read. -/
def readBasicFrom? : (skip : Nat) → Text → Option (Text × Text)
  | _, [] => none
  | skip + 1, _ :: r => readBasicFrom? skip r
  | 0, c :: r =>
    if c = '"' then some ([], r)
    else if c = '\\' then
      match escaped? r with
      | some (e, length) => (readBasicFrom? length r).map fun (s, rest) => (e :: s, rest)
      | none => none
    else if isPlain c then (readBasicFrom? 0 r).map fun (s, rest) => (c :: s, rest)
    else none

/-- The inside of a literal string on one line and the text behind its closing quote. -/
def readLiteral? : Text → Option (Text × Text)
  | [] => none
  | c :: r =>
    if c = '\'' then some ([], r)
    else if isPlain c then (readLiteral? r).map fun (s, rest) => (c :: s, rest)
    else none

/-- The end of a string over several lines, for a text that starts with at least three quotes: the
quotes before the closing ones, and the text behind these. More than five quotes end no string. -/
def closing? (quote : Char) (s : Text) : Option (Text × Text) :=
  let quotes := s.takeWhile (· = quote)
  if quotes.length ≤ 5 then some (quotes.drop 3, s.drop quotes.length) else none

/-- Whether a text starts with three quotes. -/
def opensClosing (quote : Char) (s : Text) : Bool := (s.take 3) == [quote, quote, quote]

/-- How many characters a backslash at the end of a line joins: the rest of the line and the spaces
and line ends behind it. -/
def joined? (s : Text) : Option Nat :=
  (afterNewline? (skipSpaces s)).map fun r => s.length - (skipBlankLines r).length

/-- The inside of a basic string over several lines and the text behind its closing quotes, where
the first `skip` characters belong to an escape already read. -/
def readBasicLinesFrom? : (skip : Nat) → Text → Option (Text × Text)
  | _, [] => none
  | skip + 1, _ :: r => readBasicLinesFrom? skip r
  | 0, c :: r =>
    if opensClosing '"' (c :: r) then closing? '"' (c :: r)
    else if c = '\\' then
      match joined? r with
      | some length => readBasicLinesFrom? length r
      | none =>
        match escaped? r with
        | some (e, length) => (readBasicLinesFrom? length r).map fun (s, rest) => (e :: s, rest)
        | none => none
    else if c = '\r' then
      if r.head? = some '\n' then readBasicLinesFrom? 0 r else none
    else if c = '\n' || isPlain c then
      (readBasicLinesFrom? 0 r).map fun (s, rest) => (c :: s, rest)
    else none

/-- The inside of a literal string over several lines and the text behind its closing quotes. -/
def readLiteralLines? : Text → Option (Text × Text)
  | [] => none
  | c :: r =>
    if opensClosing '\'' (c :: r) then closing? '\'' (c :: r)
    else if c = '\r' then
      if r.head? = some '\n' then readLiteralLines? r else none
    else if c = '\n' || isPlain c then (readLiteralLines? r).map fun (s, rest) => (c :: s, rest)
    else none

/-- The text without a line end at its front. -/
def skipNewline (s : Text) : Text := (afterNewline? s).getD s

/-- A string of one line. -/
def readLineString? : Text → Option (Text × Text)
  | '"' :: r => readBasicFrom? 0 r
  | '\'' :: r => readLiteral? r
  | _ => none

/-- A string of any kind. -/
def readString? (s : Text) : Option (Text × Text) :=
  if opensClosing '"' s then readBasicLinesFrom? 0 (skipNewline (s.drop 3))
  else if opensClosing '\'' s then readLiteralLines? (skipNewline (s.drop 3))
  else readLineString? s

end SeriesQuery.Toml
