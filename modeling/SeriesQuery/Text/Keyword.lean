import SeriesQuery.Text.Word

/-!
# Keywords

The clause keywords that a query is cut at. A keyword occurs only as a whole word, in any letter
case of its ASCII letters: `split?` cuts a text at the first word that spells it.
-/

namespace SeriesQuery

open Text

/-- The keywords that open a clause. -/
inductive Keyword
  | fromClause
  | whereClause
  | havingClause
  deriving DecidableEq, Repr

namespace Keyword

/-- The lower-case spelling of a keyword. -/
def spelling : Keyword → Text
  | fromClause => "from".toList
  | whereClause => "where".toList
  | havingClause => "having".toList

/-- Whether a word spells the keyword, in any letter case. -/
def spells (k : Keyword) (word : Text) : Bool := word.map Char.toLower == k.spelling

/-- An occurrence of a keyword, with the text on its two sides. -/
structure Occurrence where
  before : Text
  word : Text
  rest : Text
  deriving DecidableEq, Repr

/-- The first whole-word occurrence, given whether the text goes on a word to its left. -/
def splitFrom? (k : Keyword) : (inWord : Bool) → Text → Option Occurrence
  | _, [] => none
  | inWord, c :: r =>
    if !inWord && k.spells (leadingWord (c :: r)) then
      some ⟨[], leadingWord (c :: r), afterWord (c :: r)⟩
    else
      (splitFrom? k (isWordChar c) r).map fun o => { o with before := c :: o.before }

/-- The first whole-word occurrence of the keyword. -/
def split? (k : Keyword) (s : Text) : Option Occurrence := k.splitFrom? false s

/-- An occurrence cuts its text into three pieces and loses nothing. -/
theorem splitFrom?_append {k : Keyword} {inWord : Bool} {s : Text} {o : Occurrence}
    (h : k.splitFrom? inWord s = some o) : o.before ++ o.word ++ o.rest = s := by
  induction s generalizing inWord o with
  | nil => simp [splitFrom?] at h
  | cons c r ih =>
    simp only [splitFrom?] at h
    split at h
    · cases h; simp
    · obtain ⟨o', ho, rfl⟩ := Option.map_eq_some_iff.1 h
      simpa using ih ho

end Keyword

end SeriesQuery
