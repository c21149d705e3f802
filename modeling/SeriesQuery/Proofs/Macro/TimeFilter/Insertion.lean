import Mathlib.Data.List.Infix
import SeriesQuery.Macro.Expansion
import SeriesQuery.Proofs.Text.Keyword

/-!
# What the time filter is put into

The time filter stands behind the first WHERE of a query with one, and behind a WHERE of its own in
any other (`withTimeFilter_insertion`). Nothing else changes but that keyword, which is written in
capitals, and blanks around it and at the end of the query.

How often the filter stands in a query is counted by places (`Text.occurrences`). No place of it
reaches over a character that the name of the filter does not have (`occurrences_append_cons`), such
as a blank or the first letter of WHERE, so the pieces of a query are counted each on its own.
-/

namespace SeriesQuery

open Text

namespace Text

/-- At how many places a text has another one. -/
def occurrences (w s : Text) : Nat := s.tails.countP fun t => w.isPrefixOf t

variable {w : Text} {c d : Char} {s t : Text}

/-- A character in front of a text adds the place at the front at most. -/
theorem occurrences_cons (w : Text) (c : Char) (s : Text) :
    occurrences w (c :: s) = occurrences w s + if w <+: c :: s then 1 else 0 := by
  rw [occurrences, List.tails_cons, List.countP_cons, ← occurrences]
  simp only [List.isPrefixOf_iff_prefix]

/-- A text has no place in a piece that does not hold its first character. -/
theorem occurrences_append_of_notMem (hd : d ∉ s) (t : Text) :
    occurrences (d :: w) (s ++ t) = occurrences (d :: w) t := by
  induction s with
  | nil => rfl
  | cons c s ih =>
    have hc : ¬ d :: w <+: c :: (s ++ t) := fun h =>
      hd ((List.cons_prefix_cons.1 h).1 ▸ List.mem_cons_self ..)
    rw [List.cons_append, occurrences_cons, if_neg hc, Nat.add_zero,
      ih fun hmem => hd (List.mem_cons_of_mem c hmem)]

theorem occurrences_of_notMem (hd : d ∉ s) : occurrences (d :: w) s = 0 := by
  have h := occurrences_append_of_notMem (w := w) hd []
  rw [List.append_nil] at h
  rw [h]
  rfl

/-- No place of a text reaches over a character that the text does not have. -/
theorem prefix_append_cons_iff (hc : c ∉ w) : w <+: s ++ c :: t ↔ w <+: s := by
  refine ⟨fun h => ?_, fun h => h.trans (List.prefix_append s _)⟩
  rcases List.prefix_or_prefix_of_prefix h (List.prefix_append s (c :: t)) with hw | ⟨u, hu⟩
  · exact hw
  · rw [← hu, List.prefix_append_right_inj] at h
    cases u with
    | nil => exact ⟨[], by rw [← hu, List.append_nil, List.append_nil]⟩
    | cons e u =>
      obtain ⟨rfl, -⟩ := List.cons_prefix_cons.1 h
      exact absurd (hu ▸ List.mem_append_right s (List.mem_cons_self ..)) hc

/-- On the two sides of such a character, the places are counted each on its own. -/
theorem occurrences_append_cons (hd : c ≠ d) (hc : c ∉ w) (s t : Text) :
    occurrences (d :: w) (s ++ c :: t) = occurrences (d :: w) s + occurrences (d :: w) t := by
  induction s with
  | nil =>
    have hfront : ¬ d :: w <+: c :: t := fun h => hd (List.cons_prefix_cons.1 h).1.symm
    have hnil : occurrences (d :: w) [] = 0 := rfl
    rw [List.nil_append, occurrences_cons, if_neg hfront, hnil, Nat.zero_add, Nat.add_zero]
  | cons e s ih =>
    have hmem : c ∉ d :: w := List.not_mem_cons_of_ne_of_not_mem hd hc
    have hiff : (d :: w <+: e :: (s ++ c :: t)) ↔ d :: w <+: e :: s :=
      prefix_append_cons_iff (s := e :: s) hmem
    rw [List.cons_append, occurrences_cons, occurrences_cons, ih]
    simp only [hiff]
    omega

end Text

namespace Macro

/-! ## Places of the filter -/

/-- How often the time filter stands in a text. -/
def filterCount (s : Text) : Nat := occurrences "$timeFilter".toList s

/-- A character that the name of the filter does not have. -/
def IsForeign (c : Char) : Prop := c ∉ "$timeFilter".toList

instance (c : Char) : Decidable (IsForeign c) := inferInstanceAs (Decidable (_ ∉ _))

variable {c : Char} {s t b word : Text}

/-- On the two sides of a foreign character, the filter is counted each on its own. -/
theorem filterCount_append_cons (hc : IsForeign c) (s t : Text) :
    filterCount (s ++ c :: t) = filterCount s + filterCount t := by
  obtain ⟨hd, hw⟩ := List.ne_and_not_mem_of_not_mem_cons hc
  exact occurrences_append_cons hd hw s t

/-- A piece without a dollar sign has no part in a place of the filter. -/
theorem filterCount_append_of_notMem (hs : '$' ∉ s) (t : Text) :
    filterCount (s ++ t) = filterCount t := occurrences_append_of_notMem hs t

theorem filterCount_of_notMem (hs : '$' ∉ s) : filterCount s = 0 := occurrences_of_notMem hs

/-- The name of the filter has no blanks. -/
theorem isForeign_of_isBlank (hc : isBlank c) : IsForeign c := by
  have hall : "$timeFilter".toList.any isBlank = false := by decide
  exact fun hmem => List.any_eq_false.1 hall c hmem hc

/-- Blanks hold no dollar sign. -/
theorem notMem_of_isAllBlank (hb : isAllBlank b) : '$' ∉ b := fun hmem =>
  absurd (isAllBlank_iff.1 hb _ hmem) (by decide)

/-- Blanks behind a text have no part in a place of the filter. -/
theorem filterCount_append_blanks (hb : isAllBlank b) (s : Text) :
    filterCount (s ++ b) = filterCount s := by
  cases b with
  | nil => rw [List.append_nil]
  | cons c b =>
    obtain ⟨hc, hb⟩ := Bool.and_eq_true_iff.1 hb
    rw [filterCount_append_cons (isForeign_of_isBlank hc),
      filterCount_of_notMem (notMem_of_isAllBlank hb), Nat.add_zero]

/-- The keyword has no part in a place of the filter. -/
theorem filterCount_append_where (hword : Keyword.whereClause.spells word) (s t : Text) :
    filterCount (s ++ word ++ t) = filterCount s + filterCount t := by
  have hspelling : word.map Char.toLower = "where".toList := beq_iff_eq.1 hword
  obtain ⟨c, here, rfl, hc, hhere⟩ := List.map_eq_cons_iff.1 hspelling
  have hforeign : IsForeign c := by
    intro hmem
    have hlower := List.mem_map_of_mem (f := Char.toLower) hmem
    rw [hc] at hlower
    exact absurd hlower (by decide)
  have hdollar : '$' ∉ here := by
    intro hmem
    have hlower := List.mem_map_of_mem (f := Char.toLower) hmem
    rw [hhere] at hlower
    exact absurd hlower (by decide)
  rw [List.append_assoc, List.cons_append, filterCount_append_cons hforeign,
    filterCount_append_of_notMem hdollar]

/-! ## The two ways to put it in -/

open Keyword (whereClause)

/-- Blanks behind a text make no difference to where a keyword occurs first. -/
theorem isFirst_append_blanks {k : Keyword} {o : Keyword.Occurrence} (h : k.IsFirst s o)
    (hb : isAllBlank b) : k.IsFirst (s ++ b) { o with rest := o.rest ++ b } := by
  have hrest : ∀ c ∈ (o.rest ++ b).head?, ¬ isWordChar c := by
    intro c hc
    rw [List.head?_append] at hc
    cases hhead : o.rest.head? with
    | none =>
      rw [hhead] at hc
      exact not_isWordChar_of_isBlank (isAllBlank_iff.1 hb c (List.mem_of_mem_head? hc))
    | some d =>
      rw [hhead] at hc
      obtain rfl : d = c := Option.some.inj hc
      exact h.stands.after d hhead
  have hs : s ++ b = o.before ++ o.word ++ (o.rest ++ b) := by
    rw [h.eq_append]
    simp only [List.append_assoc]
  rw [hs]
  exact h.replace h.stands.spells hrest

/-- Blanks behind a text without a keyword add none. -/
theorem not_occursIn_append_blanks {k : Keyword} (h : k.split? s = none) (hb : isAllBlank b) :
    ¬ k.OccursIn (s ++ b) := by
  rw [← Keyword.split?_eq_none_iff]
  cases b with
  | nil => rwa [List.append_nil]
  | cons c b =>
    have hgap : ∀ d ∈ c :: b, ¬ isWordChar d := fun d hd =>
      not_isWordChar_of_isBlank (isAllBlank_iff.1 hb d hd)
    have hsplit := Keyword.split?_gap_append h (List.cons_ne_nil c b) hgap []
    rw [List.append_nil] at hsplit
    rw [hsplit]
    rfl

/-- A query without a WHERE gets one of its own, in place of the blanks at its end. -/
structure Appended (q kept : Text) : Prop where
  not_occursIn : ¬ whereClause.OccursIn q
  blanks : ∃ b, isAllBlank b ∧ q = kept ++ b
  eq_append : withTimeFilter q = kept ++ " WHERE $timeFilter".toList

/-- A query with a WHERE gets the filter and AND behind the first one, in front of what follows that
without blanks around. -/
structure Inserted (q : Text) (o : Keyword.Occurrence) (body : Text) : Prop where
  isFirst : whereClause.IsFirst q o
  blanks : ∃ b b', isAllBlank b ∧ isAllBlank b' ∧ o.rest = b ++ body ++ b'
  eq_append : withTimeFilter q = o.before ++ "WHERE ".toList ++ "$timeFilter AND ".toList ++ body

/-- The filter is put in in one of the two ways. -/
theorem appended_or_inserted (q : Text) :
    (∃ kept, Appended q kept) ∨ ∃ o body, Inserted q o body := by
  obtain ⟨b, hb, he⟩ := exists_blanks_trimEnd q
  cases hsplit : whereClause.split? (trimEnd q) with
  | none =>
    have hnot := not_occursIn_append_blanks hsplit hb
    rw [← he] at hnot
    refine .inl ⟨trimEnd q, hnot, ⟨b, hb, he⟩, ?_⟩
    unfold withTimeFilter
    dsimp only
    rw [hsplit]
  | some o =>
    have hfirst := isFirst_append_blanks (Keyword.isFirst_of_split? hsplit) hb
    rw [← he] at hfirst
    obtain ⟨b', hb', hrest⟩ := exists_blanks_trimStart o.rest
    refine .inr ⟨_, trimStart o.rest, hfirst, ⟨b', b, hb', hb, congrArg (· ++ b) hrest⟩, ?_⟩
    unfold withTimeFilter
    dsimp only
    rw [hsplit, List.append_assoc o.before "WHERE ".toList]
    rfl

section
variable {q kept body : Text} {o : Keyword.Occurrence}

/-- The WHERE that is put behind a query is the first one, with the filter behind it. -/
theorem Appended.exists_isFirst (h : Appended q kept) : ∃ before after,
    whereClause.IsFirst (withTimeFilter q)
      ⟨before, "WHERE".toList, " $timeFilter".toList ++ after⟩ := by
  obtain ⟨b, hb, he⟩ := h.blanks
  have hkept : whereClause.split? kept = none := by
    cases hsplit : whereClause.split? kept with
    | none => rfl
    | some o =>
      have hfirst := isFirst_append_blanks (Keyword.isFirst_of_split? hsplit) hb
      exact absurd ⟨_, _, _, he.trans hfirst.eq_append, hfirst.stands⟩ h.not_occursIn
  have hspace : ∀ c ∈ " $timeFilter".toList.head?, ¬ isWordChar c := by
    rintro _ ⟨⟩
    decide
  have hfound := Keyword.split?_append (b := ' ') (by decide) hkept
    (show whereClause.spells "WHERE".toList by decide) hspace
  refine ⟨kept ++ [' '], [], ?_⟩
  rw [h.eq_append]
  exact Keyword.isFirst_of_split? hfound

/-- The keyword and the filter in words of their own. -/
theorem Inserted.eq_words (h : Inserted q o body) : withTimeFilter q =
    o.before ++ "WHERE".toList ++ (" $timeFilter".toList ++ ' ' :: ("AND ".toList ++ body)) := by
  rw [h.eq_append]
  simp only [List.append_assoc]
  rfl

/-- The first WHERE stays the first one, with the filter behind it. -/
theorem Inserted.exists_isFirst (h : Inserted q o body) : ∃ before after,
    whereClause.IsFirst (withTimeFilter q)
      ⟨before, "WHERE".toList, " $timeFilter".toList ++ after⟩ := by
  have hspace : ∀ c ∈ (" $timeFilter".toList ++ ' ' :: ("AND ".toList ++ body)).head?,
      ¬ isWordChar c := by
    rintro _ ⟨⟩
    decide
  rw [h.eq_words]
  exact ⟨o.before, _, h.isFirst.replace (by decide) hspace⟩

/-- With a WHERE of its own, the filter stands in the query once more. -/
theorem Appended.filterCount_eq (h : Appended q kept) :
    filterCount (withTimeFilter q) = filterCount q + 1 := by
  obtain ⟨b, hb, rfl⟩ := h.blanks
  have hwhere : filterCount "WHERE $timeFilter".toList = 1 := by decide
  rw [h.eq_append, filterCount_append_blanks hb]
  exact (filterCount_append_cons (c := ' ') (by decide) kept _).trans (congrArg _ hwhere)

/-- Behind the first WHERE, the filter stands in the query once more. -/
theorem Inserted.filterCount_eq (h : Inserted q o body) :
    filterCount (withTimeFilter q) = filterCount q + 1 := by
  obtain ⟨b, b', hb, hb', hrest⟩ := h.blanks
  have hfilter : filterCount " $timeFilter".toList = 1 := by decide
  have hbody : filterCount (" $timeFilter".toList ++ ' ' :: ("AND ".toList ++ body)) =
      1 + filterCount body := by
    rw [filterCount_append_cons (by decide), hfilter, filterCount_append_of_notMem (by decide)]
  rw [h.eq_words, filterCount_append_where (by decide), hbody, h.isFirst.eq_append,
    filterCount_append_where h.isFirst.stands.spells, hrest, filterCount_append_blanks hb',
    filterCount_append_of_notMem (notMem_of_isAllBlank hb)]
  omega

/-- A keyword has no blanks. -/
theorem inked_of_spells {k : Keyword} (hword : k.spells word) : inked word = word := by
  refine List.filter_eq_self.2 fun c hc => ?_
  have hblank : ¬ isBlank c := fun hc' =>
    not_isWordChar_of_isBlank hc' (Keyword.isWordChar_of_spells hword hc)
  simpa using hblank

/-- What is kept of the query is the query up to blanks. -/
theorem Appended.inked_kept (h : Appended q kept) : inked kept = inked q := by
  obtain ⟨b, hb, rfl⟩ := h.blanks
  rw [inked_append, inked_eq_nil_iff.2 hb, List.append_nil]

/-- Around its first WHERE the query is kept up to blanks. -/
theorem Inserted.inked_eq (h : Inserted q o body) :
    inked q = inked o.before ++ o.word ++ inked body ∧
    inked (o.before ++ "WHERE ".toList ++ body) =
      inked o.before ++ "WHERE".toList ++ inked body := by
  obtain ⟨b, b', hb, hb', hrest⟩ := h.blanks
  have hwhere : inked "WHERE ".toList = "WHERE".toList := by decide
  constructor
  · rw [h.isFirst.eq_append, hrest]
    simp only [inked_append, inked_of_spells h.isFirst.stands.spells, inked_eq_nil_iff.2 hb,
      inked_eq_nil_iff.2 hb', List.nil_append, List.append_nil]
  · rw [inked_append, inked_append, hwhere]

end

/-- The first WHERE of a query with the time filter is written in capitals and has the filter behind
it. The filter stands in it at one place more than in the query. Without the WHERE and the filter
that are put behind a query, or without the filter and AND that are put behind its first WHERE, its
characters are those of the query up to blanks, but for the case of that WHERE. -/
theorem withTimeFilter_insertion (q : Text) :
    (∃ before after, whereClause.IsFirst (withTimeFilter q)
      ⟨before, "WHERE".toList, " $timeFilter".toList ++ after⟩) ∧
    occurrences "$timeFilter".toList (withTimeFilter q) =
      occurrences "$timeFilter".toList q + 1 ∧
    ((∃ kept, ¬ whereClause.OccursIn q ∧
        withTimeFilter q = kept ++ " WHERE $timeFilter".toList ∧ inked kept = inked q) ∨
      ∃ o body, whereClause.IsFirst q o ∧
        withTimeFilter q = o.before ++ "WHERE ".toList ++ "$timeFilter AND ".toList ++ body ∧
        inked q = inked o.before ++ o.word ++ inked body ∧
        inked (o.before ++ "WHERE ".toList ++ body) =
          inked o.before ++ "WHERE".toList ++ inked body) := by
  rcases appended_or_inserted q with ⟨kept, h⟩ | ⟨o, body, h⟩
  · exact ⟨h.exists_isFirst, h.filterCount_eq,
      .inl ⟨kept, h.not_occursIn, h.eq_append, h.inked_kept⟩⟩
  · exact ⟨h.exists_isFirst, h.filterCount_eq,
      .inr ⟨o, body, h.isFirst, h.eq_append, h.inked_eq⟩⟩

/-- A word that goes on is no WHERE, and a parenthesis ends one. -/
example : withTimeFilter "FROM somewhere where_ wHere(a = 1)\n".toList =
    "FROM somewhere where_ WHERE $timeFilter AND (a = 1)".toList := by decide

end Macro

end SeriesQuery
