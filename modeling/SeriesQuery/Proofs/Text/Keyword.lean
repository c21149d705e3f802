import SeriesQuery.Proofs.Text.Word
import SeriesQuery.Text.Keyword

/-!
# Finding a keyword

A keyword occurs in a text where a word of its own spells it (`Keyword.OccursIn`). The search finds
only such places (`standsBetween_of_splitFrom?`) and misses none (`split?_eq_none_iff`), so it finds
the first one (`split?_eq_some_iff`). It can be done piece by piece: no word reaches over a
character that is none of a word, so a piece without the keyword in front of such a character is
passed over (`splitFrom?_append_cons`). A text whose leading word spells the keyword is cut right
there (`splitFrom?_of_spells`).
-/

namespace SeriesQuery.Keyword

open Text

variable {k : Keyword}

/-- A word between two texts spells the keyword, and neither text goes on with it. -/
structure StandsBetween (k : Keyword) (before word after : Text) : Prop where
  spells : k.spells word
  before : ∀ c ∈ before.getLast?, ¬ isWordChar c
  after : ∀ c ∈ after.head?, ¬ isWordChar c

/-- The keyword occurs in a text as a whole word. -/
def OccursIn (k : Keyword) (s : Text) : Prop :=
  ∃ before word after, s = before ++ word ++ after ∧ k.StandsBetween before word after

/-- No keyword is spelled by nothing. -/
theorem not_spells_nil : ¬ k.spells [] := by cases k <;> decide

/-- What spells a keyword is a word. -/
theorem isWordChar_of_spells {word : Text} (h : k.spells word) {c : Char} (hc : c ∈ word) :
    isWordChar c := by
  have hspelling : ∀ d ∈ k.spelling, isWordChar d := List.all_eq_true.1 (by cases k <;> decide)
  exact isWordChar_of_toLower (hspelling _ (beq_iff_eq.1 h ▸ List.mem_map_of_mem hc))

/-! ## One step of the search -/

/-- A text whose leading word spells the keyword is cut behind that word. -/
theorem splitFrom?_of_spells {s : Text} (h : k.spells (leadingWord s)) :
    k.splitFrom? false s = some ⟨[], leadingWord s, afterWord s⟩ := by
  cases s with
  | nil => exact absurd h not_spells_nil
  | cons c r => simp only [splitFrom?, h, Bool.not_false, Bool.and_self, if_true]

/-- A search passes over a piece without the keyword up to a character that is none of a word. -/
theorem splitFrom?_append_cons {b : Char} (hb : ¬ isWordChar b) (r : Text) :
    ∀ {s : Text} {inWord : Bool}, k.splitFrom? inWord s = none →
      k.splitFrom? inWord (s ++ b :: r) =
        (k.splitFrom? false r).map fun o => { o with before := s ++ b :: o.before }
  | [], inWord, _ => by
    have hword : leadingWord (b :: r) = [] := leadingWord_append_cons hb [] r
    have hspells : k.spells [] = false := Bool.eq_false_iff.2 not_spells_nil
    rw [List.nil_append, splitFrom?, hword, hspells, Bool.and_false, if_neg Bool.false_ne_true,
      Bool.eq_false_iff.2 hb]
    rfl
  | c :: s, inWord, h => by
    rw [splitFrom?] at h
    split at h
    · cases h
    · next hc =>
      have ih := splitFrom?_append_cons hb r (Option.map_eq_none_iff.1 h)
      have hword : leadingWord (c :: (s ++ b :: r)) = leadingWord (c :: s) :=
        leadingWord_append_cons hb (c :: s) r
      rw [List.cons_append, splitFrom?, hword, if_neg hc, ih, Option.map_map]
      rfl

/-- A search passes over characters that are none of a word. -/
theorem splitFrom?_gap_append {s : Text} : ∀ {gap : Text}, (∀ c ∈ gap, ¬ isWordChar c) →
    k.splitFrom? false (gap ++ s) =
      (k.splitFrom? false s).map fun o => { o with before := gap ++ o.before }
  | [], _ => (Option.map_id_apply ..).symm
  | c :: gap, h => by
    have hnil : k.splitFrom? false [] = none := rfl
    have ih := splitFrom?_gap_append (s := s) fun d hd => h d (List.mem_cons_of_mem c hd)
    have hc := splitFrom?_append_cons (h c (List.mem_cons_self ..)) (gap ++ s) hnil
    rw [List.nil_append] at hc
    rw [List.cons_append, hc, ih, Option.map_map]
    rfl

/-- A search passes over a piece without the keyword and a gap behind it. -/
theorem split?_gap_append {s gap : Text} (hs : k.split? s = none) (hne : gap ≠ [])
    (hgap : ∀ c ∈ gap, ¬ isWordChar c) (r : Text) :
    k.split? (s ++ (gap ++ r)) =
      (k.split? r).map fun o => { o with before := s ++ (gap ++ o.before) } := by
  obtain ⟨b, gap, rfl⟩ := List.exists_cons_of_ne_nil hne
  have hrest := splitFrom?_gap_append (k := k) (s := r) fun c hc =>
    hgap c (List.mem_cons_of_mem b hc)
  rw [split?, List.cons_append, splitFrom?_append_cons (hgap b (List.mem_cons_self ..)) _ hs, hrest,
    Option.map_map]
  rfl

/-- Behind a piece without the keyword and a character that is none of a word, the next word that
spells the keyword is found. -/
theorem split?_append {b : Char} {s word after : Text} (hb : ¬ isWordChar b)
    (hs : k.split? s = none) (hword : k.spells word) (hafter : ∀ c ∈ after.head?, ¬ isWordChar c) :
    k.split? (s ++ b :: (word ++ after)) = some ⟨s ++ [b], word, after⟩ := by
  have hchars : ∀ c ∈ word, isWordChar c := fun _ hc => isWordChar_of_spells hword hc
  have hlead : leadingWord (word ++ after) = word := leadingWord_append hchars hafter
  rw [split?, splitFrom?_append_cons hb _ hs, splitFrom?_of_spells (hlead.symm ▸ hword), hlead,
    afterWord_append hchars hafter]
  rfl

/-! ## What the search finds -/

/-- The search finds a whole word that spells the keyword, and none at the very front of a text that
goes on a word to its left. -/
theorem standsBetween_of_splitFrom? {s : Text} {inWord : Bool} {o : Occurrence}
    (h : k.splitFrom? inWord s = some o) :
    k.StandsBetween o.before o.word o.rest ∧ (o.before = [] → inWord = false) := by
  induction s generalizing inWord o with
  | nil => cases h
  | cons c r ih =>
    rw [splitFrom?] at h
    split at h
    · next hc =>
      cases h
      obtain ⟨hin, hspells⟩ := Bool.and_eq_true_iff.1 hc
      have hfirst : ∀ d ∈ ([] : Text).getLast?, ¬ isWordChar d := by simp
      exact ⟨⟨hspells, hfirst, not_isWordChar_head_afterWord⟩, fun _ => by simpa using hin⟩
    · obtain ⟨o', ho, rfl⟩ := Option.map_eq_some_iff.1 h
      obtain ⟨⟨hspells, hbefore, hafter⟩, hfront⟩ := ih ho
      refine ⟨⟨hspells, fun d hd => ?_, hafter⟩, fun he => absurd he (List.cons_ne_nil _ _)⟩
      cases hb : o'.before with
      | nil =>
        rw [hb] at hd
        cases hd
        exact Bool.eq_false_iff.1 (hfront hb)
      | cons e b =>
        rw [hb, List.getLast?_cons_cons, ← hb] at hd
        exact hbefore d hd

/-- From an occurrence on, the leading word spells the keyword. -/
theorem StandsBetween.leadingWord_eq {before word after : Text}
    (h : k.StandsBetween before word after) : leadingWord (word ++ after) = word :=
  leadingWord_append (fun _ hc => isWordChar_of_spells h.spells hc) h.after

/-- An occurrence is one without the first character in front of it, too. -/
theorem StandsBetween.tail {c : Char} {before word after : Text}
    (h : k.StandsBetween (c :: before) word after) : k.StandsBetween before word after := by
  refine ⟨h.spells, fun d hd => h.before d ?_, h.after⟩
  rw [List.getLast?_cons, hd]
  rfl

/-- A single character in front of an occurrence is none of a word. -/
theorem StandsBetween.not_isWordChar_of_cons {c : Char} {before word after : Text}
    (h : k.StandsBetween (c :: before) word after) : before = [] → isWordChar c = false := by
  rintro rfl
  exact Bool.eq_false_iff.2 (h.before c rfl)

/-- The search misses no occurrence that does not go on a word to the left of the text. -/
theorem splitFrom?_ne_none {word after : Text} : ∀ {before : Text} {inWord : Bool},
    k.StandsBetween before word after → (before = [] → inWord = false) →
      k.splitFrom? inWord (before ++ word ++ after) ≠ none
  | [], inWord, h, hin => by
    have hspells := h.spells
    rw [← h.leadingWord_eq] at hspells
    rw [hin rfl, List.nil_append, splitFrom?_of_spells hspells]
    exact Option.some_ne_none _
  | c :: before, inWord, h, _ => by
    rw [List.cons_append, List.cons_append, splitFrom?]
    split
    · exact Option.some_ne_none _
    · exact mt Option.map_eq_none_iff.1 (splitFrom?_ne_none h.tail h.not_isWordChar_of_cons)

/-- The search passes over no occurrence that does not go on a word to the left of the text. -/
theorem length_before_le_of_splitFrom? {word after : Text} :
    ∀ {before s : Text} {inWord : Bool} {o : Occurrence}, k.splitFrom? inWord s = some o →
      s = before ++ word ++ after → k.StandsBetween before word after →
      (before = [] → inWord = false) → o.before.length ≤ before.length
  | [], s, inWord, o, h, hs, hstands, hin => by
    have hspells := hstands.spells
    rw [← hstands.leadingWord_eq] at hspells
    rw [hin rfl, hs, List.nil_append, splitFrom?_of_spells hspells] at h
    cases h
    exact Nat.le_refl 0
  | c :: before, s, inWord, o, h, hs, hstands, _ => by
    rw [hs, List.cons_append, List.cons_append, splitFrom?] at h
    split at h
    · cases h
      exact Nat.zero_le _
    · obtain ⟨o', ho, rfl⟩ := Option.map_eq_some_iff.1 h
      exact Nat.succ_le_succ
        (length_before_le_of_splitFrom? ho rfl hstands.tail hstands.not_isWordChar_of_cons)

/-- The search finds nothing exactly where the keyword does not occur. -/
theorem split?_eq_none_iff {s : Text} : k.split? s = none ↔ ¬ k.OccursIn s := by
  constructor
  · rintro h ⟨before, word, after, rfl, hstands⟩
    exact splitFrom?_ne_none hstands (fun _ => rfl) h
  · intro h
    cases hs : k.split? s with
    | none => rfl
    | some o =>
      exact absurd ⟨_, _, _, (splitFrom?_append hs).symm, (standsBetween_of_splitFrom? hs).1⟩ h

/-! ## The first occurrence -/

/-- The keyword occurs at this place of a text, and nowhere before. -/
structure IsFirst (k : Keyword) (s : Text) (o : Occurrence) : Prop where
  eq_append : s = o.before ++ o.word ++ o.rest
  stands : k.StandsBetween o.before o.word o.rest
  first : ∀ {before word after}, s = before ++ word ++ after → k.StandsBetween before word after →
    o.before.length ≤ before.length

/-- What is found is the first place of the keyword. -/
theorem isFirst_of_split? {s : Text} {o : Occurrence} (h : k.split? s = some o) :
    k.IsFirst s o where
  eq_append := (splitFrom?_append h).symm
  stands := (standsBetween_of_splitFrom? h).1
  first hs hstands := length_before_le_of_splitFrom? h hs hstands fun _ => rfl

/-- A keyword has one first place. -/
theorem IsFirst.unique {s : Text} {o o' : Occurrence} (h : k.IsFirst s o) (h' : k.IsFirst s o') :
    o = o' := by
  have hlength := le_antisymm (h.first h'.eq_append h'.stands) (h'.first h.eq_append h.stands)
  have he := h.eq_append.symm.trans h'.eq_append
  rw [List.append_assoc, List.append_assoc] at he
  obtain ⟨hbefore, htail⟩ := List.append_inj he hlength
  -- The word is the leading one of what stands behind, and so is the other.
  have hword := congrArg leadingWord htail
  rw [h.stands.leadingWord_eq, h'.stands.leadingWord_eq] at hword
  rw [hword] at htail
  have hrest := List.append_cancel_left htail
  obtain ⟨before, word, rest⟩ := o
  cases hbefore
  cases hword
  cases hrest
  rfl

/-- The search finds the first occurrence. -/
theorem split?_eq_some_iff {s : Text} {o : Occurrence} : k.split? s = some o ↔ k.IsFirst s o := by
  refine ⟨isFirst_of_split?, fun h => ?_⟩
  cases hs : k.split? s with
  | none => exact absurd ⟨_, _, _, h.eq_append, h.stands⟩ (split?_eq_none_iff.1 hs)
  | some o' => rw [h.unique (isFirst_of_split? hs)]

/-- In front of the first occurrence stands nothing, or a text without the keyword and a character
that is none of a word. -/
theorem IsFirst.cases_before {s : Text} {o : Occurrence} (h : k.IsFirst s o) :
    o.before = [] ∨
      ∃ front b, o.before = front ++ [b] ∧ ¬ isWordChar b ∧ k.split? front = none := by
  rcases List.eq_nil_or_concat o.before with hnil | ⟨front, b, hbefore⟩
  · exact .inl hnil
  · rw [List.concat_eq_append] at hbefore
    have hb : ¬ isWordChar b := h.stands.before b (by rw [hbefore, List.getLast?_concat]; rfl)
    refine .inr ⟨front, b, hbefore, hb, split?_eq_none_iff.2 ?_⟩
    rintro ⟨before, word, after, rfl, hstands⟩
    have hs : s = before ++ word ++ (after ++ [b] ++ o.word ++ o.rest) := by
      rw [h.eq_append, hbefore]
      simp only [List.append_assoc]
    have hafter : ∀ c ∈ (after ++ [b] ++ o.word ++ o.rest).head?, ¬ isWordChar c := by
      cases after with
      | nil =>
        rintro _ ⟨⟩
        exact hb
      | cons c after => exact hstands.after
    have hlength := h.first hs ⟨hstands.spells, hstands.before, hafter⟩
    rw [hbefore, List.length_append, List.length_append, List.length_append,
      List.length_singleton] at hlength
    omega

/-- The first occurrence stays the first one with another spelling and another text behind it. -/
theorem IsFirst.replace {s word rest : Text} {o : Occurrence} (h : k.IsFirst s o)
    (hword : k.spells word) (hrest : ∀ c ∈ rest.head?, ¬ isWordChar c) :
    k.IsFirst (o.before ++ word ++ rest) ⟨o.before, word, rest⟩ := by
  rw [← split?_eq_some_iff]
  rcases h.cases_before with hnil | ⟨front, b, hbefore, hb, hfront⟩
  · have hchars : ∀ c ∈ word, isWordChar c := fun _ hc => isWordChar_of_spells hword hc
    have hlead : leadingWord (word ++ rest) = word := leadingWord_append hchars hrest
    rw [hnil, List.nil_append, split?, splitFrom?_of_spells (hlead.symm ▸ hword), hlead,
      afterWord_append hchars hrest]
  · have hfound := split?_append hb hfront hword hrest
    rw [hbefore]
    simpa using hfound

end SeriesQuery.Keyword
