import Mathlib.Algebra.Ring.Nat
import SeriesQuery.Proofs.Text.Word
import SeriesQuery.Text.DecimalDigit

/-!
# Numerals

A number written with a fixed number of digits (`padded`) or with as many as it needs (`decimal`) is
read back by `digitsValue`.
-/

namespace SeriesQuery.Text

/-- ASCII digits are characters of words. -/
theorem isWordChar_of_isDigit {c : Char} (h : c.isDigit) : isWordChar c := by
  have hrange : 48 ≤ c.toNat ∧ c.toNat ≤ 57 := Char.isDigit_iff_toNat.1 h
  rw [isWordChar, if_pos (by omega), Char.isAlphanum, h, Bool.or_true, Bool.true_or]

/-- ASCII digits are decimal digits. -/
theorem isDecimalDigit_of_isDigit {c : Char} (h : c.isDigit) : isDecimalDigit c := by
  have hrange : 48 ≤ c.toNat ∧ c.toNat ≤ 57 := Char.isDigit_iff_toNat.1 h
  rw [isDecimalDigit, if_pos (by omega)]
  exact h

/-- No digit is a blank. -/
theorem not_isBlank_of_isDigit {c : Char} (h : c.isDigit) : ¬ isBlank c := fun hblank =>
  not_isWordChar_of_isBlank hblank (isWordChar_of_isDigit h)

/-- The value of digits is their number to the base ten. -/
theorem digitsValue_eq (s : Text) : digitsValue s = Nat.ofDigitChars 10 s 0 := by
  rw [digitsValue, Nat.ofDigitChars_eq_foldl]
  simp only [Nat.mul_comm]

/-- A text of exactly this many ASCII digits, and at least one. -/
structure IsDigits (width : ℕ) (s : Text) : Prop where
  length_eq : s.length = width
  isDigit : ∀ c ∈ s, c.isDigit
  ne_nil : s ≠ []

/-- A number with zeros in front, up to a width. -/
def padded (width n : ℕ) : Text := (Nat.toDigits 10 n).leftpad width '0'

/-- A padded number has digits only. -/
theorem isDigit_of_mem_padded {width n : ℕ} {c : Char} (h : c ∈ padded width n) : c.isDigit := by
  rw [padded, List.leftpad] at h
  rcases List.mem_append.1 h with h | h
  · rw [List.eq_of_mem_replicate h]
    rfl
  · exact Nat.isDigit_of_mem_toDigits (by decide) le_rfl h

/-- Zeros in front do not change a number. -/
theorem digitsValue_padded (width n : ℕ) : digitsValue (padded width n) = n := by
  rw [digitsValue_eq, padded, List.leftpad, Nat.ofDigitChars_append,
    Nat.ofDigitChars_replicate_zero, Nat.mul_zero, Nat.ofDigitChars_ten_toDigits]

/-- A number that fits its width is written with as many digits. -/
theorem isDigits_padded {width n : ℕ} (hwidth : 0 < width) (h : n < 10 ^ width) :
    IsDigits width (padded width n) where
  length_eq := by
    have hle := (Nat.length_toDigits_le_iff (by decide) hwidth).2 h
    rw [padded, List.length_leftpad, max_eq_left hle]
  isDigit _ := isDigit_of_mem_padded
  ne_nil := List.append_ne_nil_of_right_ne_nil _ Nat.toDigits_ne_nil

section
variable {width : ℕ} {g : Text}

theorem IsDigits.exists_cons (h : IsDigits width g) : ∃ c r, g = c :: r ∧ c.isDigit := by
  obtain ⟨c, r, rfl⟩ := List.exists_cons_of_ne_nil h.ne_nil
  exact ⟨c, r, rfl, h.isDigit c (List.mem_cons_self ..)⟩

/-- Digits have no blanks at their ends. -/
theorem IsDigits.hasBareEnds (h : IsDigits width g) : HasBareEnds g where
  head c hc := not_isBlank_of_isDigit (h.isDigit c (List.mem_of_mem_head? hc))
  last c hc := not_isBlank_of_isDigit (h.isDigit c (List.mem_of_mem_getLast? hc))

/-- No blanks stand in front of digits. -/
theorem IsDigits.trimStart_append (h : IsDigits width g) (r : Text) :
    trimStart (g ++ r) = g ++ r := by
  obtain ⟨c, g, rfl, hc⟩ := h.exists_cons
  exact List.dropWhile_cons_of_neg (not_isBlank_of_isDigit hc)

end

/-- A natural number is written in digits only. -/
theorem isDigits_decimal (n : ℕ) : IsDigits (decimal n).length (decimal n) where
  length_eq := rfl
  isDigit _ := Nat.isDigit_of_mem_toDigits (by decide) le_rfl
  ne_nil := Nat.toDigits_ne_nil

/-- A number is read from ASCII digits, at least one, and nothing else. -/
theorem number?_eq_some_iff {s : Text} {n : ℕ} :
    number? s = some n ↔ s ≠ [] ∧ (∀ c ∈ s, c.isDigit) ∧ digitsValue s = n := by
  rw [number?, Option.ite_none_right_eq_some, List.all_eq_true, Option.some.injEq, and_assoc]

/-- A natural number is read back from its decimal digits. -/
theorem number?_decimal (n : ℕ) : number? (decimal n) = some n := by
  have hdigits := isDigits_decimal n
  refine number?_eq_some_iff.2 ⟨hdigits.ne_nil, hdigits.isDigit, ?_⟩
  rw [digitsValue_eq]
  exact Nat.ofDigitChars_ten_toDigits

end SeriesQuery.Text
