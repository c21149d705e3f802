import SeriesQuery.Macro.Expansion
import SeriesQuery.Proofs.Text.Segment
import SeriesQuery.Proofs.Text.Separator
import SeriesQuery.Proofs.Text.Word

/-!
# The columns of an event

A column of an event is written as two underscores and its name, and its full name has the name of
the event in front. An aggregation is cut into words and the characters between them (`wordToken`),
and what is written for it comes word by word (`qualifyColumns_eq_fill`). The search for columns
does not look at what stands in front of the underscores: in each word the name of the event goes
where the first two underscores with a character behind them stand (`Qualifies`), inside the word
too. So the words that begin with their column get their full name, and all others are kept exactly
if none has a column inside (`event_columns`).
-/

namespace SeriesQuery

open Text

/-! ## Words -/

/-- The words of a text: runs of word characters. -/
def wordToken : TokenRule Text where
  read? s := if leadingWord s = [] then none else some (leadingWord s, afterWord s)
  spell w := w
  spell_ne_nil h := by
    split at h
    · cases h
    · next hne =>
      cases h
      exact hne
  spell_append h := by
    split at h
    · cases h
    · cases h
      exact leadingWord_append_afterWord _

/-- A word can stand in front of a text that does not go on with it. -/
structure IsWordBefore (w rest : Text) : Prop where
  ne_nil : w ≠ []
  isWordChar_of_mem : ∀ c ∈ w, isWordChar c
  maximal : ∀ c ∈ rest.head?, ¬ isWordChar c

/-- A word is read where one stands, as long as it goes on. -/
theorem wordToken_read?_eq_some_iff {s w rest : Text} :
    wordToken.read? s = some (w, rest) ↔ s = w ++ rest ∧ IsWordBefore w rest := by
  constructor
  · intro h
    obtain rfl : w ++ rest = s := wordToken.spell_append h
    have hne := wordToken.spell_ne_nil h
    simp only [wordToken] at h
    split at h
    · cases h
    · obtain ⟨hw, hrest⟩ := Prod.mk.inj (Option.some.inj h)
      have hword : ∀ c ∈ leadingWord (w ++ rest), isWordChar c := fun c =>
        isWordChar_of_mem_leadingWord
      have hmaximal := not_isWordChar_head_afterWord (s := w ++ rest)
      rw [hw] at hword
      rw [hrest] at hmaximal
      exact ⟨rfl, hne, hword, hmaximal⟩
  · rintro ⟨rfl, hne, hword, hmaximal⟩
    have hlead : leadingWord (w ++ rest) = w := leadingWord_append hword hmaximal
    have hafter : afterWord (w ++ rest) = rest := afterWord_append hword hmaximal
    simp only [wordToken, hlead, hafter, if_neg hne]

/-- No word is read at a character that is none of a word. -/
theorem wordToken_read?_eq_none_iff {c : Char} {s : Text} :
    wordToken.read? (c :: s) = none ↔ ¬ isWordChar c := by
  by_cases hc : isWordChar c = true
  · simp [wordToken, leadingWord, hc]
  · simp [wordToken, leadingWord, hc]

/-- Words keep apart from each other. -/
theorem wordToken_keepsApart : wordToken.KeepsApart IsWordBefore where
  read?_eq_some_iff := wordToken_read?_eq_some_iff
  isSome_read? {w rest} h s := by
    obtain ⟨c, u, rfl⟩ := List.exists_cons_of_ne_nil h.ne_nil
    have hc := h.isWordChar_of_mem c (List.mem_cons_self ..)
    rw [Option.isSome_iff_ne_none]
    exact fun hnone => wordToken_read?_eq_none_iff.1 hnone hc
  overlap {w w' rest rest' u v} h _ hspell hu _ _ := by
    -- What stands in front of a second word inside the first is a word itself.
    obtain rfl : w = u ++ v := hspell
    have hword : ∀ c ∈ u, isWordChar c := fun c hc =>
      h.isWordChar_of_mem c (List.mem_append_left v hc)
    exact ⟨u, [], ⟨hu, hword, nofun⟩, List.prefix_refl u⟩

namespace Macro

/-! ## Columns in a word -/

/-- The word has a column somewhere. -/
def HasColumn (w : Text) : Prop :=
  ∃ before column, w = before ++ "__".toList ++ column ∧ column ≠ []

/-- A word with the name of the event in front of its first column, if it has one. -/
def qualifyWord (name w : Text) : Text :=
  match splitOnce? "__".toList w with
  | none => w
  | some (before, column) =>
    if column = [] then w else before ++ name ++ "__".toList ++ column

/-- A word with the name of the event in front if it is a column. -/
def qualifyLeading (name w : Text) : Text :=
  if "__".toList <+: w ∧ 2 < w.length then name ++ w else w

/-- What is written for a word or a character between words. -/
inductive Qualifies (name : Text) : Segment Text → Text → Prop
  | plain (c : Char) : Qualifies name (.plain c) [c]
  | column {w before column : Text} (hcut : CutsAtFirst "__".toList w before column)
      (hne : column ≠ []) :
      Qualifies name (.token w) (before ++ name ++ "__".toList ++ column)
  | other {w : Text} (h : ¬ HasColumn w) : Qualifies name (.token w) w

variable {name w rest : Text}

/-- No column stands in front of the first two underscores, and none behind them if nothing does. -/
theorem hasColumn_iff {before column : Text} (h : CutsAtFirst "__".toList w before column) :
    HasColumn w ↔ column ≠ [] := by
  refine ⟨?_, fun hne => ⟨before, column, h.eq_append, hne⟩⟩
  rintro ⟨before', column', he, hne⟩ rfl
  have hle := h.first he
  have hlength := congrArg List.length (h.eq_append.symm.trans he)
  have hpos := List.length_pos_iff.2 hne
  simp only [List.length_append, List.length_nil] at hlength
  omega

/-- Without two underscores a word has no column. -/
theorem not_hasColumn_of_splitOnce? (h : splitOnce? "__".toList w = none) : ¬ HasColumn w := by
  rintro ⟨before, column, rfl, -⟩
  exact splitOnce?_ne_none h

/-- The name of the event goes in front of the first column. -/
theorem qualifyWord_of_column {before column : Text} (h : CutsAtFirst "__".toList w before column)
    (hne : column ≠ []) : qualifyWord name w = before ++ name ++ "__".toList ++ column := by
  rw [qualifyWord, splitOnce?_eq_some_iff.2 h]
  exact if_neg hne

/-- A word without a column stays as it is. -/
theorem qualifyWord_of_not_hasColumn (h : ¬ HasColumn w) : qualifyWord name w = w := by
  cases hsplit : splitOnce? "__".toList w with
  | none => rw [qualifyWord, hsplit]
  | some cut =>
    obtain ⟨before, column⟩ := cut
    have hcut := splitOnce?_eq_some_iff.1 hsplit
    rw [qualifyWord, hsplit]
    exact if_pos (not_not.1 fun hne => h ((hasColumn_iff hcut).2 hne))

/-- The first column of a word stands behind its first two underscores. -/
theorem exists_cutsAtFirst (h : HasColumn w) :
    ∃ before column, CutsAtFirst "__".toList w before column ∧ column ≠ [] := by
  cases hsplit : splitOnce? "__".toList w with
  | none => exact absurd h (not_hasColumn_of_splitOnce? hsplit)
  | some cut =>
    obtain ⟨before, column⟩ := cut
    have hcut := splitOnce?_eq_some_iff.1 hsplit
    exact ⟨before, column, hcut, (hasColumn_iff hcut).1 h⟩

/-- Words and the characters between them are written so. -/
theorem qualifies_piece (name : Text) (segment : Segment Text) :
    Qualifies name segment (segment.piece (qualifyWord name)) := by
  cases segment with
  | plain c => exact .plain c
  | token w =>
    change Qualifies name (.token w) (qualifyWord name w)
    by_cases h : HasColumn w
    · obtain ⟨before, column, hcut, hne⟩ := exists_cutsAtFirst h
      rw [qualifyWord_of_column hcut hne]
      exact .column hcut hne
    · rw [qualifyWord_of_not_hasColumn h]
      exact .other h

/-! ## Word by word -/

/-- A column is a word behind two underscores. -/
theorem eventColumn_read?_eq_some_iff {s column rest : Text} :
    eventColumn.read? s = some (column, rest) ↔
      s = "__".toList ++ (column ++ rest) ∧ IsWordBefore column rest := by
  have hread : eventColumn.read? s = (after? "__".toList s).bind wordToken.read? := by
    simp only [eventColumn, readEventColumn?]
    cases after? "__".toList s <;> rfl
  rw [hread, Option.bind_eq_some_iff]
  constructor
  · rintro ⟨r, hafter, hr⟩
    obtain ⟨rfl, hcolumn⟩ := wordToken_read?_eq_some_iff.1 hr
    exact ⟨after?_eq_some_iff.1 hafter, hcolumn⟩
  · rintro ⟨rfl, hcolumn⟩
    exact ⟨_, after?_eq_some_iff.2 rfl, wordToken_read?_eq_some_iff.2 ⟨rfl, hcolumn⟩⟩

/-- Two underscores in front of a word are part of it. -/
theorem isWordBefore_underscores {column : Text} (h : IsWordBefore column rest) :
    IsWordBefore ("__".toList ++ column) rest where
  ne_nil := nofun
  isWordChar_of_mem c hc := by
    rcases List.mem_append.1 hc with hc | hc
    · have hall : "__".toList.all isWordChar := by decide
      exact List.all_eq_true.1 hall c hc
    · exact h.isWordChar_of_mem c hc
  maximal := h.maximal

/-- A column at the front of a word is all of it. -/
theorem eventColumn_read?_word (h : IsWordBefore w rest) {column r : Text} :
    eventColumn.read? (w ++ rest) = some (column, r) ↔
      w = "__".toList ++ column ∧ column ≠ [] ∧ r = rest := by
  rw [eventColumn_read?_eq_some_iff]
  constructor
  · rintro ⟨he, hcolumn⟩
    have hread := wordToken_read?_eq_some_iff.2 ⟨rfl, h⟩
    rw [← List.append_assoc] at he
    rw [wordToken_read?_eq_some_iff.2 ⟨he, isWordBefore_underscores hcolumn⟩] at hread
    obtain ⟨hw, hr⟩ := Prod.mk.inj (Option.some.inj hread)
    exact ⟨hw.symm, hcolumn.ne_nil, hr⟩
  · rintro ⟨rfl, hne, rfl⟩
    exact ⟨List.append_assoc .., hne,
      fun c hc => h.isWordChar_of_mem c (List.mem_append_right _ hc), h.maximal⟩

/-- Between words no column begins. -/
theorem eventColumn_read?_cons {c : Char} (hc : ¬ isWordChar c) (s : Text) :
    eventColumn.read? (c :: s) = none := by
  refine Option.eq_none_iff_forall_ne_some.2 ?_
  rintro ⟨column, rest⟩ h
  obtain ⟨he, -⟩ := eventColumn_read?_eq_some_iff.1 h
  obtain ⟨rfl, -⟩ := List.cons.inj he
  exact hc (by decide)

/-- Where no column begins, the first character is kept. -/
theorem qualifyColumns_of_read?_eq_none {c : Char} {s : Text}
    (h : eventColumn.read? (c :: s) = none) (name : Text) :
    qualifyColumns name (c :: s) = c :: qualifyColumns name s := by
  rw [qualifyColumns, TokenRule.substitute, eventColumn.segments_of_read?_eq_none h]
  rfl

/-- Where a column begins, the name of the event is put in front of it. -/
theorem qualifyColumns_of_read? {s column : Text}
    (h : eventColumn.read? s = some (column, rest)) (name : Text) :
    qualifyColumns name s = name ++ "__".toList ++ column ++ qualifyColumns name rest := by
  rw [qualifyColumns, TokenRule.substitute, eventColumn.segments_of_read? h,
    Segment.fill_cons_token, List.append_assoc name "__".toList column]
  rfl

/-- A character in front of a word that is no column by itself is kept. -/
theorem qualifyWord_cons {c : Char} (h : ∀ column, c :: w = "__".toList ++ column → column = [])
    (name : Text) : qualifyWord name (c :: w) = c :: qualifyWord name w := by
  cases hafter : after? "__".toList (c :: w) with
  | some column =>
    have hw := after?_eq_some_iff.1 hafter
    obtain rfl := h column hw
    obtain ⟨rfl, rfl⟩ := List.cons.inj hw
    rfl
  | none =>
    rw [qualifyWord, splitOnce?, hafter, qualifyWord]
    cases splitOnce? "__".toList w with
    | none => rfl
    | some cut =>
      obtain ⟨before, column⟩ := cut
      dsimp only [Option.map_some]
      split <;> rfl

/-- The name of the event is put into a word. -/
theorem qualifyColumns_word (name : Text) (hmaximal : ∀ c ∈ rest.head?, ¬ isWordChar c) :
    ∀ {w : Text}, (∀ c ∈ w, isWordChar c) →
      qualifyColumns name (w ++ rest) = qualifyWord name w ++ qualifyColumns name rest
  | [], _ => rfl
  | c :: w, hword => by
    have hw : IsWordBefore (c :: w) rest := ⟨List.cons_ne_nil c w, hword, hmaximal⟩
    cases hread : eventColumn.read? (c :: w ++ rest) with
    | some found =>
      obtain ⟨column, r⟩ := found
      obtain ⟨he, hne, rfl⟩ := (eventColumn_read?_word hw).1 hread
      have hcut : CutsAtFirst "__".toList (c :: w) [] column := ⟨he, fun _ => Nat.zero_le _⟩
      rw [qualifyColumns_of_read? hread, qualifyWord_of_column hcut hne, List.nil_append]
    | none =>
      have hnot : ∀ column, c :: w = "__".toList ++ column → column = [] := fun column he => by
        by_contra hne
        rw [(eventColumn_read?_word hw).2 ⟨he, hne, rfl⟩] at hread
        cases hread
      have ih := qualifyColumns_word name hmaximal fun d hd => hword d (List.mem_cons_of_mem c hd)
      rw [List.cons_append] at hread ⊢
      rw [qualifyColumns_of_read?_eq_none hread, ih, qualifyWord_cons hnot, List.cons_append]

/-- The name of the event is put into an aggregation word by word. -/
theorem qualifyColumns_eq_fill (name aggregation : Text) :
    qualifyColumns name aggregation =
      Segment.fill (qualifyWord name) (wordToken.segments aggregation) := by
  induction hn : aggregation.length using Nat.strongRecOn generalizing aggregation with
  | ind n ih =>
    cases aggregation with
    | nil => rfl
    | cons c s =>
      cases hread : wordToken.read? (c :: s) with
      | none =>
        have hc := wordToken_read?_eq_none_iff.1 hread
        have hlength : s.length < n := hn ▸ Nat.lt_succ_self s.length
        rw [wordToken.segments_of_read?_eq_none hread, Segment.fill_cons_plain,
          qualifyColumns_of_read?_eq_none (eventColumn_read?_cons hc s), ih _ hlength s rfl]
      | some found =>
        obtain ⟨w, rest⟩ := found
        have hlength := hn ▸ wordToken.length_lt_of_read? hread
        obtain ⟨he, hw⟩ := wordToken_read?_eq_some_iff.1 hread
        rw [wordToken.segments_of_read? hread, Segment.fill_cons_token, he,
          qualifyColumns_word name hw.maximal hw.isWordChar_of_mem, ih _ hlength rest rfl]

/-! ## Columns at the front of their word -/

/-- A word without a column stays as it is by the other rule too. -/
theorem qualifyLeading_of_not_hasColumn (h : ¬ HasColumn w) (name : Text) :
    qualifyLeading name w = w := by
  refine if_neg ?_
  rintro ⟨⟨column, rfl⟩, hlength⟩
  refine h ⟨[], column, rfl, ?_⟩
  rintro rfl
  exact absurd hlength (by decide)

/-- The two rules agree on a word that begins with its column. -/
theorem qualifyLeading_eq_qualifyWord (h : HasColumn w) (hbegins : "__".toList <+: w)
    (name : Text) : qualifyLeading name w = qualifyWord name w := by
  obtain ⟨column, rfl⟩ := hbegins
  have hcut : CutsAtFirst "__".toList ("__".toList ++ column) [] column :=
    ⟨rfl, fun _ => Nat.zero_le _⟩
  have hne := (hasColumn_iff hcut).1 h
  have hlength : 2 < ("__".toList ++ column).length := by
    have := List.length_pos_iff.2 hne
    rw [List.length_append, show "__".toList.length = 2 from rfl]
    omega
  rw [qualifyLeading, if_pos ⟨⟨column, rfl⟩, hlength⟩, qualifyWord_of_column hcut hne,
    List.nil_append, List.append_assoc]

/-- A word with a column gets longer by the name of the event. -/
theorem length_qualifyWord (h : HasColumn w) (name : Text) :
    (qualifyWord name w).length = name.length + w.length := by
  obtain ⟨before, column, hcut, hne⟩ := exists_cutsAtFirst h
  rw [qualifyWord_of_column hcut hne, hcut.eq_append]
  simp only [List.length_append]
  omega

/-- The rule for words that begin with a column adds no more than the other. -/
theorem length_qualifyLeading_le (name w : Text) :
    (qualifyLeading name w).length ≤ (qualifyWord name w).length := by
  by_cases h : HasColumn w
  · rw [length_qualifyWord h, qualifyLeading]
    split
    · rw [List.length_append]
    · exact Nat.le_add_left _ _
  · rw [qualifyLeading_of_not_hasColumn h, qualifyWord_of_not_hasColumn h]

/-- Shorter values fill a shorter text. -/
theorem length_fill_le {value value' : Text → Text}
    (hle : ∀ w, (value w).length ≤ (value' w).length) :
    ∀ segments : List (Segment Text),
      (Segment.fill value segments).length ≤ (Segment.fill value' segments).length
  | [] => Nat.le_refl 0
  | .plain c :: segments => Nat.succ_le_succ (length_fill_le hle segments)
  | .token w :: segments => by
    rw [Segment.fill_cons_token, Segment.fill_cons_token, List.length_append, List.length_append]
    exact Nat.add_le_add (hle w) (length_fill_le hle segments)

/-- The two rules differ at the words with a column inside, and so do the texts they give. -/
theorem fill_qualifyWord_eq_iff (name : Text) (segments : List (Segment Text)) :
    Segment.fill (qualifyWord name) segments = Segment.fill (qualifyLeading name) segments ↔
      name = [] ∨ ∀ w, .token w ∈ segments → HasColumn w → "__".toList <+: w := by
  constructor
  · intro h
    by_contra hnot
    obtain ⟨hevent, hinside⟩ := not_or.1 hnot
    push Not at hinside
    obtain ⟨w, hw, hcolumn, hbegins⟩ := hinside
    have hkept : qualifyLeading name w = w := if_neg fun hleading => hbegins hleading.1
    have hpos := List.length_pos_iff.2 hevent
    obtain ⟨before, after, rfl⟩ := List.append_of_mem hw
    have hbefore := length_fill_le (length_qualifyLeading_le name) before
    have hafter := length_fill_le (length_qualifyLeading_le name) after
    have hlength := congrArg List.length h
    rw [Segment.fill_append, Segment.fill_append, Segment.fill_cons_token, Segment.fill_cons_token,
      hkept] at hlength
    simp only [List.length_append, length_qualifyWord hcolumn] at hlength
    omega
  · intro h
    refine Segment.fill_congr fun w hw => ?_
    by_cases hcolumn : HasColumn w
    · rcases h with rfl | hbegins
      · have hempty : qualifyLeading [] w = w := ite_self w
        obtain ⟨before, column, hcut, hne⟩ := exists_cutsAtFirst hcolumn
        rw [hempty, qualifyWord_of_column hcut hne, List.append_nil]
        exact hcut.eq_append.symm
      · exact (qualifyLeading_eq_qualifyWord hcolumn (hbegins w hw hcolumn) name).symm
    · rw [qualifyWord_of_not_hasColumn hcolumn, qualifyLeading_of_not_hasColumn hcolumn]

/-- The statement for an event, with the text of its aggregation filled in. -/
def eventStatement (name aggregation : Text) : Text :=
  "SELECT $timeSeries AS t, ".toList ++ aggregation ++ " AS ".toList ++ name
    ++ " FROM $table WHERE $timeFilter AND event = '".toList ++ name
    ++ "' GROUP BY t ORDER BY t".toList

/-- An aggregation has one division into words and characters between them. In the statement for an
event, a word with a column has the name of the event in front of its first column, and all else is
as it is written. This is the name in front of the words that are a column, and no change of the
others, exactly if every word with a column begins with it. -/
theorem event_columns (name aggregation : Text) :
    (∃! segments, wordToken.Cuts IsWordBefore aggregation segments) ∧
    ∀ segments, wordToken.Cuts IsWordBefore aggregation segments →
      ∃ pieces, List.Forall₂ (Qualifies name) segments pieces ∧
        event name (some aggregation) = eventStatement name pieces.flatten ∧
        (pieces.flatten = Segment.fill (qualifyLeading name) segments ↔
          name = [] ∨ ∀ w, .token w ∈ segments → HasColumn w → "__".toList <+: w) := by
  refine ⟨TokenRule.existsUnique_cuts wordToken_keepsApart aggregation, fun segments hcuts => ?_⟩
  obtain rfl := hcuts.eq_segments wordToken_keepsApart
  refine ⟨_, Segment.forall₂_map (qualifies_piece name) _, ?_, ?_⟩
  · rw [← Segment.fill_eq_flatten, ← qualifyColumns_eq_fill]
    rfl
  · rw [← Segment.fill_eq_flatten]
    exact fill_qualifyWord_eq_iff name _

/-- Two columns, a column inside a word, and two underscores without one. -/
def mixedColumns : Text := "avg(__ms)/max(___)+é__x - __".toList

/-- Among columns of several forms, the one inside a word gets the name too. -/
theorem event_columns_mixed :
    ∃ segments pieces, wordToken.Cuts IsWordBefore mixedColumns segments ∧
      List.Forall₂ (Qualifies "login".toList) segments pieces ∧
      event "login".toList (some mixedColumns) = eventStatement "login".toList pieces.flatten ∧
      event "login".toList (some mixedColumns) =
        eventStatement "login".toList "avg(login__ms)/max(login___)+élogin__x - __".toList ∧
      pieces.flatten ≠ Segment.fill (qualifyLeading "login".toList) segments := by
  obtain ⟨⟨segments, hcuts, -⟩, hall⟩ := event_columns "login".toList mixedColumns
  obtain ⟨pieces, hpieces, hevent, hiff⟩ := hall segments hcuts
  refine ⟨segments, pieces, hcuts, hpieces, hevent, by decide +kernel, fun h => ?_⟩
  have hsegments := hcuts.eq_segments wordToken_keepsApart
  have hword : .token "é__x".toList ∈ segments := by
    rw [hsegments]
    decide +kernel
  rcases hiff.1 h with hname | hleading
  · exact absurd hname (by decide)
  · exact absurd (hleading _ hword ⟨['é'], ['x'], rfl, by decide⟩) (by decide)

/-- The name of the event goes into a word that two underscores stand inside of. -/
theorem event_columns_insideWord :
    wordToken.Cuts IsWordBefore "max(user__size)".toList
      [.token "max".toList, .plain '(', .token "user__size".toList, .plain ')'] ∧
    Segment.fill (qualifyLeading "login".toList)
        [.token "max".toList, .plain '(', .token "user__size".toList, .plain ')'] =
      "max(user__size)".toList ∧
    event "login".toList (some "max(user__size)".toList) =
      eventStatement "login".toList "max(userlogin__size)".toList ∧
    event "login".toList (some "max(user__size)".toList) ≠
      eventStatement "login".toList "max(user__size)".toList := by
  have hcuts := TokenRule.cuts_segments wordToken_keepsApart "max(user__size)".toList
  have hsegments : wordToken.segments "max(user__size)".toList =
      [.token "max".toList, .plain '(', .token "user__size".toList, .plain ')'] := by decide
  rw [hsegments] at hcuts
  exact ⟨hcuts, by decide, by decide +kernel, by decide +kernel⟩

end Macro

end SeriesQuery
