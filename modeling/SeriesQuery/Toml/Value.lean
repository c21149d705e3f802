import SeriesQuery.Toml.Scalar
import SeriesQuery.Toml.Table

/-!
# TOML: keys and values

A key is one or more parts with points between them. A value is a scalar, an array or an inline
table; arrays may go over several lines and end in a comma, inline tables may do neither. Arrays
and inline tables nest to a limit, which is also what the recursion of `readValue?` goes by.
-/

namespace SeriesQuery.Toml

open Text

/-- The first number of levels that is refused, of nested values and of parts of a key. -/
def nestingLimit : Nat := 80

/-- A character of a key without quotes. -/
def isBareKeyChar (c : Char) : Bool := c.isAlphanum || c = '-' || c = '_'

/-- One part of a key, and what follows it. -/
def readKeyPart? (s : Text) : Option (Text × Text) :=
  match s with
  | '"' :: _ | '\'' :: _ => readLineString? s
  | _ =>
    let part := s.takeWhile isBareKeyChar
    if part = [] then none else some (part, s.dropWhile isBareKeyChar)

/-- The parts of a key, for a text that holds at most `fuel` of them. -/
def readKeyParts? : (fuel : Nat) → Text → Option (List Text × Text)
  | 0, _ => none
  | fuel + 1, s => do
    let (part, r) ← readKeyPart? (skipSpaces s)
    match skipSpaces r with
    | '.' :: r =>
      let (parts, rest) ← readKeyParts? fuel r
      return (part :: parts, rest)
    | rest => return ([part], rest)

/-- A key with fewer parts than the limit, and what follows it and the spaces behind. -/
def readKey? (s : Text) : Option (List Text × Text) := readKeyParts? (nestingLimit - 1) s

/-- The elements of an array from one on, in a text that holds fewer than `fuel`, and what follows
the array. -/
def readElements? (element? : Text → Option (Data × Text)) :
    (fuel : Nat) → Text → Option (List Data × Text)
  | 0, _ => none
  | fuel + 1, s =>
    match skipGaps false s with
    | ']' :: r => some ([], r)
    | s => do
      let (d, r) ← element? s
      match skipGaps false r with
      | ',' :: r =>
        let (elements, rest) ← readElements? element? fuel r
        return (d :: elements, rest)
      | ']' :: r => return ([d], r)
      | _ => none

/-- The table with the pairs of an inline table from one on, in a text that holds at most `fuel`,
and what follows the inline table. -/
def readPairs? (value? : Text → Option (Data × Text)) :
    (fuel : Nat) → Entries → Text → Option (Entries × Text)
  | 0, _, _ => none
  | fuel + 1, entries, s => do
    let (key, r) ← readKey? s
    let (d, r) ← value? (skipSpaces (← after? ['='] r))
    let entries ← entries.addDotted (key.getLast?.getD []) d key.dropLast
    match skipSpaces r with
    | ',' :: r => readPairs? value? fuel entries r
    | '\x7d' :: r => return (entries, r)
    | _ => none

/-- The value at the front of a text, with at most `depth` levels of arrays and inline tables, and
what follows it. -/
def readValueTo? : (depth : Nat) → Text → Option (Data × Text)
  | 0, s => readScalar? s
  | depth + 1, s =>
    match s with
    | '[' :: r =>
      (readElements? (readValueTo? depth) s.length r).map fun (ds, rest) => (.list ds, rest)
    | '\x7b' :: r =>
      match skipSpaces r with
      | '\x7d' :: r => some (.record [], r)
      | r =>
        (readPairs? (readValueTo? depth) s.length [] r).map fun (entries, rest) =>
          (.record (fieldsOf entries), rest)
    | _ => readScalar? s

/-- The value at the front of a text, and what follows it. -/
def readValue? (s : Text) : Option (Data × Text) := readValueTo? (nestingLimit - 1) s

end SeriesQuery.Toml
