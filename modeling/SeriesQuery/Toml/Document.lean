import SeriesQuery.Toml.Value

/-!
# TOML: documents

A document is a sequence of lines: blank ones and comments, pairs of a key and a value, and headers,
which open the table that the pairs behind them belong to. `readDocument?` gives the record that a
document stands for, and nothing for a text that is no document. A byte order mark may stand at the
very front.
-/

namespace SeriesQuery.Toml

open Text

/-- A header at the front of a text, behind its opening brackets: its key, and the text behind
the line. -/
def readHeader? (closing : Text) (s : Text) : Option (List Text × Text) := do
  let (key, r) ← readKey? s
  return (key, ← afterLine? (← after? closing r))

/-- A pair at the front of a text: its key and value, with what follows the line. -/
def readPair? (s : Text) : Option (List Text × Data × Text) := do
  let (key, r) ← readKey? s
  let (d, r) ← readValue? (skipSpaces (← after? ['='] r))
  return (key, d, ← afterLine? r)

/-- The tables after the lines of a text, which are fewer than `fuel`, where pairs belong to the
table at the path `current`. -/
def readLines? : (fuel : Nat) → (current : List Text) → Entries → Text → Option Entries
  | 0, _, _, _ => none
  | fuel + 1, current, entries, s =>
    match skipSpaces s with
    | [] => some entries
    | '[' :: '[' :: r => do
      let (key, rest) ← readHeader? "]]".toList r
      let entries ← entries.alterAt (Entries.openElement (key.getLast?.getD [])) key.dropLast
      readLines? fuel key entries rest
    | '[' :: r => do
      let (key, rest) ← readHeader? "]".toList r
      let entries ← entries.alterAt (Entries.openTable (key.getLast?.getD [])) key.dropLast
      readLines? fuel key entries rest
    | '#' :: r => do readLines? fuel current entries (← afterLine? ('#' :: r))
    | s =>
      match afterNewline? s with
      | some rest => readLines? fuel current entries rest
      | none => do
        let (key, d, rest) ← readPair? s
        let entries ←
          entries.alterAt (Entries.addDotted (key.getLast?.getD []) d key.dropLast) current
        readLines? fuel current entries rest

/-- The record that a document stands for. -/
def readDocument? (s : Text) : Option Data :=
  let s := (after? ['\ufeff'] s).getD s
  (readLines? (s.length + 1) [] [] s).map fun entries => .record (fieldsOf entries)

end SeriesQuery.Toml
