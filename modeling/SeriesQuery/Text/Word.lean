import SeriesQuery.Text.Basic
import SeriesQuery.Text.WordRanges

/-!
# Words

A word is a maximal run of word characters: letters, marks, decimal digits, connectors such as `_`,
and the two joiners. Names of variables, keywords and event columns are words, so `leadingWord` and
`afterWord` are the one way in which later modules cut them off.
-/

namespace SeriesQuery.Text

/-- A letter, mark, decimal digit, connector or joiner. -/
def isWordChar (c : Char) : Bool :=
  if c.toNat < 128 then c.isAlphanum || c == '_' else inRanges wordRanges c.toNat

/-- The longest run of word characters at the front of a text. -/
def leadingWord (s : Text) : Text := s.takeWhile isWordChar

/-- What follows the leading word. -/
def afterWord (s : Text) : Text := s.dropWhile isWordChar

/-- A text is its leading word and what stands behind it. -/
@[simp]
theorem leadingWord_append_afterWord (s : Text) : leadingWord s ++ afterWord s = s :=
  List.takeWhile_append_dropWhile

/-- A leading word has characters of words only. -/
theorem isWordChar_of_mem_leadingWord {s : Text} {c : Char} (h : c ∈ leadingWord s) :
    isWordChar c :=
  List.all_eq_true.1 List.all_takeWhile c h

/-- The letters and digits of ASCII are word characters. -/
theorem isWordChar_of_isAlphanum {c : Char} (h : c.isAlphanum) : isWordChar c := by
  have hc : c.toNat < 128 := by
    rw [show c.isAlphanum = ((decide (c.val ≥ 65 ∧ c.val ≤ 90) || (c.val ≥ 97 && c.val ≤ 122))
      || (c.val ≥ 48 && c.val ≤ 57)) from rfl] at h
    simp [UInt32.le_iff_toNat_le] at h
    omega
  simp [isWordChar, hc, h]

end SeriesQuery.Text
