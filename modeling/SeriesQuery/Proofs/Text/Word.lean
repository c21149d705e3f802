import SeriesQuery.Proofs.Text.Blank
import SeriesQuery.Text.Word

/-!
# Where words end

A word at the front of a text is cut off again wherever no word character follows it
(`leadingWord_append`, `afterWord_append`). Blanks separate words: no blank is a word character
(`not_isWordChar_of_isBlank`).
-/

namespace SeriesQuery.Text

/-- What follows the leading word does not go on with it. -/
theorem not_isWordChar_head_afterWord {s : Text} : ∀ c ∈ (afterWord s).head?, ¬ isWordChar c := by
  intro c hc
  have := List.head?_dropWhile_not isWordChar s
  rw [show (s.dropWhile isWordChar).head? = some c from hc] at this
  simp [this]

/-- A character is one of a word if it is one in lower case. -/
theorem isWordChar_of_toLower {c : Char} (h : isWordChar c.toLower) : isWordChar c := by
  by_cases hupper : c.isUpper
  · have halphanum : (c.isUpper || c.isLower || c.isDigit) = true := by
      rw [hupper, Bool.true_or, Bool.true_or]
    exact isWordChar_of_isAlphanum halphanum
  · have hsame : c.toLower = c := dif_neg (mt (decide_eq_true (p := _ ∧ _)) hupper)
    rwa [hsame] at h

section
variable {w r : Text}

/-- A word is the leading one of a text that does not go on with it. -/
theorem leadingWord_append (hw : ∀ c ∈ w, isWordChar c) (hr : ∀ c ∈ r.head?, ¬ isWordChar c) :
    leadingWord (w ++ r) = w := takeWhile_append_of_head hw hr

/-- Behind a word stands what does not go on with it. -/
theorem afterWord_append (hw : ∀ c ∈ w, isWordChar c) (hr : ∀ c ∈ r.head?, ¬ isWordChar c) :
    afterWord (w ++ r) = r := dropWhile_append_of_head hw hr

end

/-- No leading word reaches over a character that is none of a word. -/
theorem leadingWord_append_cons {b : Char} (hb : ¬ isWordChar b) (s r : Text) :
    leadingWord (s ++ b :: r) = leadingWord s := by
  rw [leadingWord, List.takeWhile_append, List.takeWhile_cons_of_neg hb, List.append_nil]
  split
  · next h => exact (List.takeWhile_prefix isWordChar).eq_of_length h |>.symm
  · rfl

/-! ## Blanks and words -/

/-- The code points of the blanks, one by one. -/
def blankPoints : List Nat :=
  List.range' 0x9 5 ++ [0x20, 0x85, 0xa0, 0x1680] ++ List.range' 0x2000 11
    ++ [0x2028, 0x2029, 0x202f, 0x205f, 0x3000]

/-- No blank is a word character. -/
theorem not_isWordChar_of_isBlank {c : Char} (h : isBlank c) : ¬ isWordChar c := by
  have hmem : c.toNat ∈ blankPoints := by
    simp only [isBlank, inRanges, List.any_cons, List.any_nil, Bool.or_false, Bool.or_eq_true,
      Bool.and_eq_true, decide_eq_true_eq] at h
    simp only [blankPoints, List.mem_append, List.mem_range'_1, List.mem_cons, List.not_mem_nil]
    omega
  have hall : ∀ n ∈ blankPoints, ¬ isWordChar (.ofNat n) := by decide +kernel
  simpa using hall _ hmem

end SeriesQuery.Text
