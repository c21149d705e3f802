/-!
# Texts

A text is the list of its characters. This file holds what every later module uses: joining and
splitting at a fixed separator, the decimal spelling of an integer, and membership of a code point
in a table of ranges.
-/

namespace SeriesQuery

/-- A text, character by character. -/
abbrev Text := List Char

namespace Text

/-- The texts in order, with `sep` between neighbours. -/
def join (sep : Text) (parts : List Text) : Text := sep.intercalate parts

/-- What follows `lead`, for a text that starts with it. -/
def after? : (lead s : Text) → Option Text
  | [], s => some s
  | _ :: _, [] => none
  | a :: lead, c :: r => if a = c then after? lead r else none

/-- What stands before and after the first occurrence of `sep`. -/
def splitOnce? (sep : Text) : Text → Option (Text × Text)
  | [] => if sep = [] then some ([], []) else none
  | c :: r =>
    match after? sep (c :: r) with
    | some rest => some ([], rest)
    | none => (splitOnce? sep r).map fun (before, rest) => (c :: before, rest)

/-- The pieces of a text between the occurrences of the character `sep`. -/
def splitAtEach (sep : Char) : Text → List Text
  | [] => [[]]
  | c :: r =>
    match c == sep, splitAtEach sep r with
    | true, pieces => [] :: pieces
    | false, [] => [[c]]
    | false, piece :: pieces => (c :: piece) :: pieces

/-- An integer in decimal digits, after a minus sign when it is negative. -/
def decimal : Int → Text
  | .ofNat n => Nat.toDigits 10 n
  | .negSucc n => '-' :: Nat.toDigits 10 (n + 1)

/-- Whether a table of inclusive ranges covers a code point. -/
def inRanges (ranges : List (Nat × Nat)) (n : Nat) : Bool :=
  ranges.any fun (low, high) => low ≤ n && n ≤ high

@[simp]
theorem join_nil (sep : Text) : join sep [] = [] := rfl

@[simp]
theorem join_singleton (sep part : Text) : join sep [part] = part := List.intercalate_singleton

/-- A text before others stands in front of the separator and their joining. -/
theorem join_cons_of_ne_nil (sep : Char) (part : Text) {parts : List Text} (h : parts ≠ []) :
    join [sep] (part :: parts) = part ++ sep :: join [sep] parts := by
  rw [join, List.intercalate_cons_of_ne_nil h, List.append_assoc, List.singleton_append]
  rfl

/-- Reading a lead off the front succeeds exactly on what starts with it. -/
theorem after?_eq_some_iff {lead s rest : Text} : after? lead s = some rest ↔ s = lead ++ rest := by
  fun_induction after? lead s with
  | case1 => simp [eq_comm]
  | case2 => simp
  | case3 lead c r ih => simpa using ih
  | case4 a lead c r h => simp [Ne.symm h]

/-- The two sides of an occurrence and the separator spell the text. -/
theorem eq_of_splitOnce? {sep s before rest : Text} (h : splitOnce? sep s = some (before, rest)) :
    s = before ++ sep ++ rest := by
  induction s generalizing before rest with
  | nil =>
    simp only [splitOnce?] at h
    split at h <;> simp_all
  | cons c r ih =>
    simp only [splitOnce?] at h
    split at h
    · next hp =>
      obtain ⟨rfl, rfl⟩ := by simpa using h
      simpa using after?_eq_some_iff.1 hp
    · obtain ⟨⟨b, t⟩, hr, hb⟩ := Option.map_eq_some_iff.1 h
      simp only [Prod.mk.injEq] at hb
      rw [← hb.1, ← hb.2, ih hr]
      simp

end Text

end SeriesQuery
