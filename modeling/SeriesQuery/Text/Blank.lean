import SeriesQuery.Text.Basic

/-!
# Blanks

`isBlank` is the Unicode property White_Space, which trimming and splitting into words go by. It is
wider than the four blanks of `Char.isWhitespace` (`isBlank_of_isWhitespace`).
-/

namespace SeriesQuery.Text

/-- A character with the property White_Space. -/
def isBlank (c : Char) : Bool :=
  inRanges [(0x9, 0xd), (0x20, 0x20), (0x85, 0x85), (0xa0, 0xa0), (0x1680, 0x1680),
    (0x2000, 0x200a), (0x2028, 0x2029), (0x202f, 0x202f), (0x205f, 0x205f), (0x3000, 0x3000)]
    c.toNat

/-- Whether a text holds nothing but blanks. -/
def isAllBlank (s : Text) : Bool := s.all isBlank

def trimStart (s : Text) : Text := s.dropWhile isBlank

def trimEnd (s : Text) : Text := (s.reverse.dropWhile isBlank).reverse

/-- A text without the blanks at its two ends. -/
def trim (s : Text) : Text := trimEnd (trimStart s)

/-- The last of the words that blanks separate; empty exactly for a text of blanks. -/
def lastWord (s : Text) : Text := ((trimEnd s).reverse.takeWhile (!isBlank ·)).reverse

/-- ASCII white space is blank. -/
theorem isBlank_of_isWhitespace {c : Char} (h : c.isWhitespace) : isBlank c := by
  simp only [Char.isWhitespace, Bool.or_eq_true, decide_eq_true_eq] at h
  rcases h with ((rfl | rfl) | rfl) | rfl <;> decide

end SeriesQuery.Text
