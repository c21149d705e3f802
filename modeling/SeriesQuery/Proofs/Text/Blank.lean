import Mathlib.Data.List.DropRight
import SeriesQuery.Text.Blank

/-!
# Trimming

Trimming takes everything from a text exactly when the text is all blank (`trim_eq_nil_iff`), and
nothing when no blank stands at its two ends (`trim_eq_self`). What it takes is blank
(`exists_blanks_trim`) and what it leaves has no blank at its ends (`hasBareEnds_trim`), so blanks
around a text make no difference to it (`trim_blanks_append`). Runs of other characters are cut off
in the same way, by `takeWhile_append_of_head`.
-/

namespace SeriesQuery.Text

theorem isAllBlank_nil : isAllBlank [] := rfl

/-- A blank text has blanks only. -/
theorem isAllBlank_iff {s : Text} : isAllBlank s ↔ ∀ c ∈ s, isBlank c := List.all_eq_true

/-- Trimming the front takes nothing but blanks. -/
theorem forall_mem_trimStart_iff {s : Text} :
    (∀ c ∈ trimStart s, isBlank c) ↔ ∀ c ∈ s, isBlank c := by
  constructor
  · intro h c hc
    rw [← List.takeWhile_append_dropWhile (p := isBlank) (l := s)] at hc
    rcases List.mem_append.1 hc with hc | hc
    · exact List.mem_takeWhile_imp hc
    · exact h c hc
  · intro h c hc
    exact h c ((List.dropWhile_suffix isBlank).subset hc)

/-- Nothing is left of exactly the texts of blanks. -/
theorem trim_eq_nil_iff {s : Text} : trim s = [] ↔ isAllBlank s := by
  rw [isAllBlank_iff, ← forall_mem_trimStart_iff]
  exact List.rdropWhile_eq_nil_iff

/-- A text whose first character is no blank has nothing to trim in front. -/
theorem trimStart_eq_self {s : Text} (h : ∀ c ∈ s.head?, ¬ isBlank c) : trimStart s = s := by
  cases s with
  | nil => rfl
  | cons c r => exact List.dropWhile_cons_of_neg (h c rfl)

/-- A text whose last character is no blank has nothing to trim behind. -/
theorem trimEnd_eq_self {s : Text} (h : ∀ c ∈ s.getLast?, ¬ isBlank c) : trimEnd s = s :=
  List.rdropWhile_eq_self_iff.2 fun hs => h _ (List.getLast?_eq_some_getLast hs)

/-- A text with no blank at its ends is trimmed already. -/
theorem trim_eq_self {s : Text} (hf : ∀ c ∈ s.head?, ¬ isBlank c)
    (hl : ∀ c ∈ s.getLast?, ¬ isBlank c) : trim s = s := by
  rw [trim, trimStart_eq_self hf, trimEnd_eq_self hl]

/-! ## Runs of characters -/

section
variable {p : Char → Bool} {s r : Text}

/-- A run at the front of a text that does not go on with it is the longest one there. -/
theorem takeWhile_append_of_head (hs : ∀ c ∈ s, p c) (hr : ∀ c ∈ r.head?, ¬ p c) :
    (s ++ r).takeWhile p = s := by
  rw [List.takeWhile_append_of_pos hs]
  cases r with
  | nil => rw [List.takeWhile_nil, List.append_nil]
  | cons c r => rw [List.takeWhile_cons_of_neg (hr c rfl), List.append_nil]

/-- What is dropped from the front of a text ends where something else begins. -/
theorem dropWhile_append_of_head (hs : ∀ c ∈ s, p c) (hr : ∀ c ∈ r.head?, ¬ p c) :
    (s ++ r).dropWhile p = r := by
  have h := List.takeWhile_append_dropWhile (p := p) (l := s ++ r)
  rw [takeWhile_append_of_head hs hr] at h
  exact List.append_cancel_left h

end

/-! ## What trimming takes and leaves -/

/-- No blank stands at either end of a text. -/
structure HasBareEnds (s : Text) : Prop where
  head : ∀ c ∈ s.head?, ¬ isBlank c
  last : ∀ c ∈ s.getLast?, ¬ isBlank c

theorem hasBareEnds_singleton {c : Char} (hc : ¬ isBlank c) : HasBareEnds [c] where
  head := by rintro _ ⟨⟩; exact hc
  last := by rintro _ ⟨⟩; exact hc

/-- Only blank texts are nothing without the blanks in front. -/
theorem trimStart_eq_nil_iff {s : Text} : trimStart s = [] ↔ isAllBlank s :=
  List.dropWhile_eq_nil_iff.trans isAllBlank_iff.symm

/-- Blanks in front of a text are trimmed away. -/
theorem trimStart_append {b : Text} (hb : isAllBlank b) (s : Text) :
    trimStart (b ++ s) = trimStart s :=
  List.dropWhile_append_of_pos (isAllBlank_iff.1 hb)

/-- Blanks behind a text are trimmed away. -/
theorem trimEnd_append {b : Text} (hb : isAllBlank b) (s : Text) :
    trimEnd (s ++ b) = trimEnd s := by
  have hrev : ∀ c ∈ b.reverse, isBlank c := fun c hc =>
    isAllBlank_iff.1 hb c (List.mem_reverse.1 hc)
  rw [trimEnd, trimEnd, List.reverse_append, List.dropWhile_append_of_pos hrev]

/-- A text is what trimming its front leaves of it behind blanks. -/
theorem exists_blanks_trimStart (s : Text) : ∃ b, isAllBlank b ∧ s = b ++ trimStart s :=
  ⟨s.takeWhile isBlank, isAllBlank_iff.2 fun _ hc => List.mem_takeWhile_imp hc,
    List.takeWhile_append_dropWhile.symm⟩

/-- A text is what trimming its end leaves of it in front of blanks. -/
theorem exists_blanks_trimEnd (s : Text) : ∃ b, isAllBlank b ∧ s = trimEnd s ++ b := by
  refine ⟨(s.reverse.takeWhile isBlank).reverse, ?_, ?_⟩
  · exact isAllBlank_iff.2 fun c hc => List.mem_takeWhile_imp (List.mem_reverse.1 hc)
  · rw [trimEnd, ← List.reverse_append, List.takeWhile_append_dropWhile, List.reverse_reverse]

/-- A text is what trimming leaves of it with blanks around. -/
theorem exists_blanks_trim (s : Text) :
    ∃ b b', isAllBlank b ∧ isAllBlank b' ∧ s = b ++ trim s ++ b' := by
  obtain ⟨b, hb, hfront⟩ := exists_blanks_trimStart s
  obtain ⟨b', hb', hback⟩ := exists_blanks_trimEnd (trimStart s)
  refine ⟨b, b', hb, hb', ?_⟩
  rw [trim, List.append_assoc, ← hback]
  exact hfront

/-- What trimming the front leaves does not start with a blank. -/
theorem not_isBlank_head_trimStart (s : Text) : ∀ c ∈ (trimStart s).head?, ¬ isBlank c := by
  intro c hc
  have := List.head?_dropWhile_not isBlank s
  rw [show (s.dropWhile isBlank).head? = some c from hc] at this
  simp [this]

/-- What trimming leaves has no blank at its ends. -/
theorem hasBareEnds_trim (s : Text) : HasBareEnds (trim s) := by
  refine ⟨fun c hc => not_isBlank_head_trimStart s c ?_, fun c hc => ?_⟩
  · obtain ⟨t, ht⟩ : trim s <+: trimStart s := List.rdropWhile_prefix isBlank _
    rw [← ht, List.head?_append, hc]
    rfl
  · obtain ⟨hne, rfl⟩ := List.mem_getLast?_eq_getLast hc
    exact List.rdropWhile_last_not isBlank _ hne

/-- Blanks around a text make no difference to what trimming leaves of it. -/
theorem trim_blanks_append {b b' : Text} (hb : isAllBlank b) (hb' : isAllBlank b') (s : Text) :
    trim (b ++ s ++ b') = trim s := by
  rw [trim, List.append_assoc, trimStart_append hb, trim]
  by_cases hs : isAllBlank s
  · rw [trimStart_append hs, trimStart_eq_nil_iff.2 hb', trimStart_eq_nil_iff.2 hs]
  · have hne : trimStart s ≠ [] := mt trimStart_eq_nil_iff.1 hs
    have happ : trimStart (s ++ b') = trimStart s ++ b' := by
      rw [trimStart, List.dropWhile_append]
      exact if_neg (mt List.isEmpty_iff.1 hne)
    rw [happ, trimEnd_append hb']

/-- A text that trimming leaves as it is has no blank at its ends. -/
theorem hasBareEnds_iff {s : Text} : HasBareEnds s ↔ trim s = s := by
  refine ⟨fun h => trim_eq_self h.head h.last, fun h => ?_⟩
  rw [← h]
  exact hasBareEnds_trim s

/-- Behind a text that ends in no blank, only the blanks of what follows are trimmed away. -/
theorem trimEnd_append_of_last {s : Text} (hs : ∀ c ∈ s.getLast?, ¬ isBlank c) (t : Text) :
    trimEnd (s ++ t) = s ++ trimEnd t := by
  by_cases ht : isAllBlank t
  · have hnil : trimEnd t = [] := trimEnd_append ht []
    rw [trimEnd_append ht, hnil, List.append_nil, trimEnd_eq_self hs]
  · have hne : t.reverse.dropWhile isBlank ≠ [] := fun h => ht <| isAllBlank_iff.2 fun c hc =>
      List.dropWhile_eq_nil_iff.1 h c (List.mem_reverse.2 hc)
    rw [trimEnd, List.reverse_append, List.dropWhile_append, if_neg (mt List.isEmpty_iff.1 hne),
      List.reverse_append, List.reverse_reverse, trimEnd]

/-- Behind a text with no blank at its ends, only the end of what follows is trimmed. -/
theorem HasBareEnds.trim_append {s : Text} (hs : HasBareEnds s) (hne : s ≠ []) (t : Text) :
    trim (s ++ t) = s ++ trimEnd t := by
  have hhead : ∀ c ∈ (s ++ t).head?, ¬ isBlank c := by
    rw [List.head?_append_of_ne_nil _ hne]
    exact hs.head
  rw [trim, trimStart_eq_self hhead, trimEnd_append_of_last hs.last]

/-- A text has no blank at its ends when its first and last pieces have none at theirs. -/
theorem HasBareEnds.surround {s t : Text} (hs : HasBareEnds s) (ht : HasBareEnds t) (hsne : s ≠ [])
    (htne : t ≠ []) (m : Text) : HasBareEnds (s ++ (m ++ t)) where
  head := by
    rw [List.head?_append_of_ne_nil _ hsne]
    exact hs.head
  last := by
    rw [← List.append_assoc, List.getLast?_append_of_ne_nil _ htne]
    exact ht.last

/-- The last word of a text that ends in a blank and a word. -/
theorem lastWord_append {b : Char} {w : Text} (hb : isBlank b) (hw : w ≠ [])
    (hword : ∀ c ∈ w, ¬ isBlank c) (s : Text) : lastWord (s ++ b :: w) = w := by
  have hend : trimEnd (s ++ b :: w) = s ++ b :: w := by
    refine trimEnd_eq_self fun c hc => hword c ?_
    rw [List.getLast?_append_of_ne_nil _ (List.cons_ne_nil b w),
      List.getLast?_cons_of_ne_nil hw] at hc
    exact List.mem_of_mem_getLast? hc
  have hrev : ∀ c ∈ w.reverse, (!isBlank c) = true := fun c hc => by
    simpa using hword c (List.mem_reverse.1 hc)
  rw [lastWord, hend, List.reverse_append, List.reverse_cons, List.append_assoc,
    List.takeWhile_append_of_pos hrev, List.singleton_append,
    List.takeWhile_cons_of_neg (by simpa using hb), List.append_nil, List.reverse_reverse]

/-! ## Texts up to blanks -/

/-- The characters of a text that are no blanks. -/
def inked (s : Text) : Text := s.filter fun c => !isBlank c

/-- The ink of two texts is that of each. -/
theorem inked_append (u s : Text) : inked (u ++ s) = inked u ++ inked s := List.filter_append ..

theorem inked_cons_of_isBlank {c : Char} (h : isBlank c) (s : Text) : inked (c :: s) = inked s :=
  List.filter_cons_of_neg (by simpa using h)

/-- A text without ink is blank. -/
theorem inked_eq_nil_iff {s : Text} : inked s = [] ↔ isAllBlank s := by
  rw [inked, List.filter_eq_nil_iff, isAllBlank_iff]
  simp only [Bool.not_eq_true', Bool.not_eq_false]

end SeriesQuery.Text
