import SeriesQuery.Proofs.Macro.Clauses
import SeriesQuery.Proofs.Text.Blank

/-!
# The clauses of a rate

Rates take a source as a whole. Only the time filter is searched a place for, so a HAVING clause
stays where the source has it: the filter of a source without a condition comes behind it
(`Clauses.withTimeFilter_text`), and the grouping does in any case. The inner statement of rates
therefore has its clauses in the order of SQL exactly if the source has no HAVING clause
(`rate_clauses`). Pairs cut that clause off and put it behind the grouping.

To see that one text is not the clauses in another order, the blanks between its pieces are taken
out of it: what is left of a text does not depend on them (`Text.Spaced.inked_eq`).
-/

namespace SeriesQuery

open Text

namespace Text

/-- Pieces with white space between them are the pieces, up to white space. -/
theorem Spaced.inked_eq {pieces : List Text} {s : Text} (h : Spaced pieces s) :
    inked s = pieces.flatMap inked := by
  induction h with
  | single piece => simp
  | cons piece gap h ih =>
    have hgap : inked gap.text = [] := inked_eq_nil_iff.2 gap.isAllBlank
    rw [inked_append, inked_append, hgap, List.nil_append, ih, List.flatMap_cons]

/-- The text is these pieces behind others, each with white space in front of it. -/
inductive Trailing : List Text → Text → Prop
  | none : Trailing [] []
  | some (gap : Gap) {pieces : List Text} {s : Text} (h : Spaced pieces s) :
      Trailing pieces (gap.text ++ s)

/-- Pieces with white space in front of each can stand behind others. -/
theorem Spaced.append_trailing {pieces pieces' : List Text} {s t : Text} (hs : Spaced pieces s)
    (ht : Trailing pieces' t) : Spaced (pieces ++ pieces') (s ++ t) := by
  cases ht with
  | none => simpa using hs
  | some gap h => exact hs.append gap h

/-- Pieces behind pieces are pieces behind what stands in front of both. -/
theorem Trailing.append {pieces pieces' : List Text} {s t : Text} (hs : Trailing pieces s)
    (ht : Trailing pieces' t) : Trailing (pieces ++ pieces') (s ++ t) := by
  cases hs with
  | none => exact ht
  | some gap h =>
    rw [List.append_assoc]
    exact .some gap (h.append_trailing ht)

end Text

namespace Macro

/-- The keyword of a clause is no blank: the clause begins with its first letter. -/
theorem Clause.exists_inked_word {k : Keyword} (c : Clause k) :
    ∃ first rest, inked c.word = first :: rest ∧ k.spelling.head? = some first.toLower := by
  obtain ⟨first, rest, hword⟩ := List.exists_cons_of_ne_nil c.word_ne_nil
  have hchar : isWordChar first :=
    Keyword.isWordChar_of_spells c.spells (hword ▸ List.mem_cons_self ..)
  refine ⟨first, inked rest, ?_, ?_⟩
  · rw [hword, inked, List.filter_cons_of_pos]
    · rfl
    · simpa using fun hblank => not_isWordChar_of_isBlank hblank hchar
  · rw [← beq_iff_eq.1 c.spells, hword]
    rfl

namespace Clauses

variable (q : Clauses)

/-! ## Where the time filter goes -/

/-- A source ends in no blank. -/
theorem last_text : ∀ d ∈ q.text.getLast?, ¬ isBlank d := by
  unfold text following
  cases q.groupCondition with
  | none =>
    rw [Option.elim_none, List.append_nil]
    exact q.last_front
  | some groupCondition =>
    obtain ⟨gap, c⟩ := groupCondition
    rw [Option.elim_some, ← List.append_assoc]
    exact c.last_append _

/-- What stands behind the source when the time filter is in: with a condition, the filter and that
condition and then the HAVING clause, else the HAVING clause and then the filter. -/
def filteredTail : Text :=
  if q.condition.isSome then q.filtered ++ following q.groupCondition
  else following q.groupCondition ++ q.filtered

/-- The time filter goes into the WHERE clause, or into a new one behind everything else. -/
theorem withTimeFilter_text
    (hgroup : ∀ c ∈ q.groupCondition, ¬ Keyword.whereClause.OccursIn c.2.body) {blanks : Text}
    (hblanks : isAllBlank blanks) :
    withTimeFilter (q.text ++ blanks) = q.source.text ++ q.filteredTail := by
  have hsource := q.source.split?_text_eq_none (by decide) q.not_where_source
  unfold withTimeFilter
  dsimp only
  rw [trimEnd_append hblanks, trimEnd_eq_self q.last_text]
  unfold text front filteredTail filtered following
  cases q.condition with
  | some condition =>
    obtain ⟨gap, c⟩ := condition
    rw [Option.elim_some, List.append_assoc, List.append_assoc, c.split?_append_append hsource gap]
    dsimp only
    rw [trimStart_append c.gap.isAllBlank, trimStart_eq_self]
    · simp
    · intro d hd
      rw [List.head?_append_of_ne_nil _ c.body_ne_nil] at hd
      exact c.hasBareEnds_body.head d hd
  | none =>
    rw [Option.elim_none, List.append_nil]
    cases hgroupCondition : q.groupCondition with
    | none =>
      rw [Option.elim_none, List.append_nil, hsource]
      rfl
    | some groupCondition =>
      obtain ⟨gap, c⟩ := groupCondition
      have hnone : Keyword.whereClause.split? (q.source.text ++ (gap.text ++ c.text)) = none := by
        rw [Keyword.split?_gap_append hsource gap.ne_nil gap.not_isWordChar,
          c.split?_text_eq_none (by decide) (hgroup _ hgroupCondition)]
        rfl
      rw [Option.elim_some, hnone]
      simp

/-! ## The order of the clauses -/

/-- The WHERE clause with the time filter. -/
def filterPieces : List Text :=
  ["WHERE".toList, "$timeFilter".toList]
    ++ q.condition.elim [] fun (_, c) => ["AND".toList, c.body]

/-- The HAVING clause. -/
def havingPieces : List Text := q.groupCondition.elim [] fun (_, c) => [c.word, c.body]

/-- The clauses in front of the time filter. -/
def selectPieces (args : List Text) : List Text :=
  ["SELECT $timeSeries AS t,".toList, join ", ".toList args, q.source.word, q.source.body]

/-- The clauses of the inner statement of rates in the order of SQL. -/
def ratePieces (args : List Text) : List Text :=
  q.selectPieces args ++ (q.filterPieces ++ (["GROUP BY t".toList] ++ q.havingPieces))
    ++ ["ORDER BY t".toList]

/-- The two clauses behind the source as they are written: HAVING stands behind a condition, but in
front of a WHERE that only holds the filter. -/
def tailPieces : List Text :=
  if q.condition.isSome then q.filterPieces ++ q.havingPieces else q.havingPieces ++ q.filterPieces

/-- The clauses of the inner statement of rates as they are written: the grouping stands behind all
clauses of the source. -/
def writtenRatePieces (args : List Text) : List Text :=
  q.selectPieces args ++ (q.tailPieces ++ ["GROUP BY t".toList]) ++ ["ORDER BY t".toList]

/-- The filter and the condition stand behind the source. -/
theorem trailing_filtered : Trailing q.filterPieces q.filtered := by
  obtain ⟨gap, filter, hfiltered, hspaced⟩ := q.exists_gap_filtered
  exact hfiltered ▸ .some gap hspaced

/-- The HAVING clause stands behind others. -/
theorem trailing_having : Trailing q.havingPieces (following q.groupCondition) := by
  unfold havingPieces following
  cases q.groupCondition with
  | none => exact .none
  | some groupCondition =>
    obtain ⟨gap, c⟩ := groupCondition
    exact .some gap (.pair c.word c.body c.gap)

/-- Both clauses stand behind the source in the order they are written in. -/
theorem trailing_filteredTail : Trailing q.tailPieces q.filteredTail := by
  unfold tailPieces filteredTail
  split
  · exact q.trailing_filtered.append q.trailing_having
  · exact q.trailing_having.append q.trailing_filtered

/-- The inner statement of rates. -/
def rateInner (args : List Text) : Text :=
  "SELECT $timeSeries AS t,".toList ++ (Gap.space.text ++ join ", ".toList args)
    ++ (Gap.space.text ++ (q.source.text ++ q.filteredTail))
    ++ (Gap.space.text ++ ("GROUP BY t".toList ++ (Gap.space.text ++ "ORDER BY t".toList)))

/-- The inner statement of rates is its clauses with white space between them. -/
theorem spaced_rateInner (args : List Text) :
    Spaced (q.writtenRatePieces args) (q.rateInner args) := by
  have hselect := Spaced.pair "SELECT $timeSeries AS t,".toList (join ", ".toList args) .space
  have hsource : Spaced [q.source.word, q.source.body] q.source.text :=
    .pair q.source.word q.source.body q.source.gap
  have horder := Spaced.pair "GROUP BY t".toList "ORDER BY t".toList .space
  have h := (hselect.append .space (hsource.append_trailing q.trailing_filteredTail)).append
    .space horder
  unfold writtenRatePieces selectPieces rateInner
  simpa only [List.append_assoc, List.cons_append, List.nil_append] using h

/-- Blanks aside, a text that begins with the HAVING clause begins with its first letter. -/
theorem havingPieces_ne {gap : Gap} {c : Clause .havingClause}
    (h : q.groupCondition = some (gap, c)) (r : Text) {s : Text} {first : Char} {rest : Text}
    (hs : s = first :: rest) (hfirst : first.toLower ≠ 'h') :
    q.havingPieces.flatMap inked ++ r ≠ s := by
  obtain ⟨first', rest', hword, hhead⟩ := c.exists_inked_word
  have hpieces : q.havingPieces.flatMap inked = first' :: (rest' ++ inked c.body) := by
    rw [havingPieces, h]
    simp [hword]
  rw [hpieces, hs]
  intro heq
  obtain ⟨rfl, -⟩ := List.cons.inj heq
  exact hfirst (Option.some.inj hhead).symm

/-- The clauses are in the order of SQL exactly if there is no HAVING among them. -/
theorem spaced_ratePieces_iff (args : List Text) :
    Spaced (q.ratePieces args) (q.rateInner args) ↔ q.groupCondition = none := by
  constructor
  · intro h
    have heq := h.inked_eq.symm.trans (q.spaced_rateInner args).inked_eq
    unfold ratePieces writtenRatePieces at heq
    simp only [List.flatMap_append] at heq
    -- Between the source and the order, which both have, the pieces are the same up to blanks.
    have hmiddle := List.append_cancel_left (List.append_cancel_right heq)
    cases hgroup : q.groupCondition with
    | none => rfl
    | some groupCondition =>
      obtain ⟨gap, c⟩ := groupCondition
      unfold tailPieces at hmiddle
      split at hmiddle
      · rw [List.flatMap_append, List.append_assoc] at hmiddle
        have hbehind := List.append_cancel_left hmiddle
        exact absurd hbehind.symm (q.havingPieces_ne hgroup _ rfl (by decide))
      · rw [List.flatMap_append, List.append_assoc] at hmiddle
        exact absurd hmiddle.symm (q.havingPieces_ne hgroup _ rfl (by decide))
  · intro hgroup
    have hpieces : q.writtenRatePieces args = q.ratePieces args := by
      simp [writtenRatePieces, ratePieces, tailPieces, havingPieces, hgroup]
    exact hpieces ▸ q.spaced_rateInner args

end Clauses

/-- The column of a rate, named after the alias. -/
def rateColumn (name : Text) : Text :=
  name ++ " / runningDifference(t/1000) AS ".toList ++ name ++ "Rate".toList

/-- In the inner statement of rates the time filter stands in front of the condition, or behind all
clauses of a source without one, and the grouping and the order stand behind it. All clauses keep
their texts as they are written. They are in the order of SQL, up to white space, exactly if the
source has no HAVING clause. -/
theorem rate_clauses (q : Clauses) {args names : List Text} {blanks : Text} (hargs : args ≠ [])
    (hnames : args.mapM aliasOf = .ok names)
    (hgroup : ∀ c ∈ q.groupCondition, ¬ Keyword.whereClause.OccursIn c.2.body)
    (hblanks : isAllBlank blanks) :
    ∃ inner, rate args (q.text ++ blanks) =
        .ok ("SELECT t, ".toList ++ join ", ".toList (names.map rateColumn) ++ " FROM (".toList
          ++ inner ++ ")".toList) ∧
      Spaced (q.writtenRatePieces args) inner ∧
      (Spaced (q.ratePieces args) inner ↔ q.groupCondition = none) := by
  refine ⟨q.rateInner args, ?_, q.spaced_rateInner args, q.spaced_ratePieces_iff args⟩
  have hrates : (names.map fun a =>
      a ++ " / runningDifference(t/1000) AS ".toList ++ a ++ "Rate".toList) =
        names.map rateColumn := rfl
  have hselect : " FROM (SELECT $timeSeries AS t, ".toList =
      " FROM (".toList ++ ("SELECT $timeSeries AS t,".toList ++ Gap.space.text) := by decide
  have horder : " GROUP BY t ORDER BY t)".toList = Gap.space.text
      ++ ("GROUP BY t".toList ++ (Gap.space.text ++ ("ORDER BY t".toList ++ ")".toList))) := by
    decide
  unfold rate
  rw [if_neg hargs, hnames]
  refine congrArg Except.ok ?_
  rw [q.withTimeFilter_text hgroup hblanks, hrates, hselect, horder,
    show " ".toList = Gap.space.text from rfl]
  unfold Clauses.rateInner
  simp only [List.append_assoc]

/-- A source with a condition and a HAVING clause. -/
def slowRequests : Clauses where
  source := {
    word := "FROM".toList
    gap := .space
    body := "requests".toList
    spells := by decide
    notBlank := by decide
    trim_eq := by decide }
  condition := some (.space, {
    word := "where".toList
    gap := .space
    body := "code = 200".toList
    spells := by decide
    notBlank := by decide
    trim_eq := by decide })
  groupCondition := some (.space, {
    word := "Having".toList
    gap := .space
    body := "avg(ms) > 500".toList
    spells := by decide
    notBlank := by decide
    trim_eq := by decide })
  not_where_source := Keyword.split?_eq_none_iff.1 (by decide)
  not_having_source := Keyword.split?_eq_none_iff.1 (by decide)
  not_having_condition := by
    rintro _ ⟨⟩
    exact Keyword.split?_eq_none_iff.1 (by decide)

/-- The filter goes in front of the condition, but the grouping behind HAVING. -/
theorem rate_clauses_slowRequests :
    slowRequests.text = "FROM requests where code = 200 Having avg(ms) > 500".toList ∧
    ∃ inner, rate ["count() n".toList] (slowRequests.text ++ " ".toList) =
        .ok ("SELECT t, n / runningDifference(t/1000) AS nRate FROM (".toList ++ inner
          ++ ")".toList) ∧
      Spaced ["SELECT $timeSeries AS t,".toList, "count() n".toList, "FROM".toList,
        "requests".toList, "WHERE".toList, "$timeFilter".toList, "AND".toList,
        "code = 200".toList, "Having".toList, "avg(ms) > 500".toList, "GROUP BY t".toList,
        "ORDER BY t".toList] inner ∧
      ¬ Spaced (slowRequests.ratePieces ["count() n".toList]) inner := by
  have hargs : ["count() n".toList] ≠ [] := List.cons_ne_nil _ _
  have hnames : ["count() n".toList].mapM aliasOf = .ok ["n".toList] := by decide
  have hgroup : ∀ c ∈ slowRequests.groupCondition,
      ¬ Keyword.whereClause.OccursIn c.2.body := by
    rintro _ ⟨⟩
    exact Keyword.split?_eq_none_iff.1 (by decide)
  have hblanks : isAllBlank " ".toList := by decide
  have hcolumns : "SELECT t, ".toList ++ join ", ".toList (["n".toList].map rateColumn)
      ++ " FROM (".toList =
        "SELECT t, n / runningDifference(t/1000) AS nRate FROM (".toList := by decide +kernel
  obtain ⟨inner, hrate, hwritten, horder⟩ :=
    rate_clauses slowRequests hargs hnames hgroup hblanks
  rw [hcolumns] at hrate
  exact ⟨by decide +kernel, inner, hrate, hwritten, fun h => nomatch horder.1 h⟩

/-- A source with a HAVING clause and no condition gets its WHERE behind HAVING, where the order of
SQL has it in front of the grouping. -/
theorem rate_clauses_whereLast :
    aliasOf "count() total".toList = .ok "total".toList ∧
    ¬ Keyword.whereClause.OccursIn "t".toList ∧ ¬ Keyword.havingClause.OccursIn "t".toList ∧
    ¬ Keyword.whereClause.OccursIn "total > 10".toList ∧
    rate ["count() total".toList] "FROM t HAVING total > 10".toList =
      .ok ("SELECT t, total / runningDifference(t/1000) AS totalRate FROM (".toList
        ++ ("SELECT $timeSeries AS t, count() total FROM t HAVING total > 10 ".toList
          ++ "WHERE $timeFilter GROUP BY t ORDER BY t".toList) ++ ")".toList) ∧
    ¬ Spaced ["SELECT $timeSeries AS t,".toList, "count() total".toList, "FROM".toList, "t".toList,
        "WHERE".toList, "$timeFilter".toList, "GROUP BY t".toList, "HAVING".toList,
        "total > 10".toList, "ORDER BY t".toList]
      ("SELECT $timeSeries AS t, count() total FROM t HAVING total > 10 ".toList
        ++ "WHERE $timeFilter GROUP BY t ORDER BY t".toList) := by
  have hnot (k : Keyword) : ¬ k.OccursIn "t".toList ∧ ¬ k.OccursIn "total > 10".toList := by
    cases k <;> exact ⟨Keyword.split?_eq_none_iff.1 (by decide),
      Keyword.split?_eq_none_iff.1 (by decide)⟩
  refine ⟨by decide, (hnot _).1, (hnot _).1, (hnot _).2, by decide +kernel, fun h => ?_⟩
  exact absurd h.inked_eq (by decide +kernel)

end Macro

end SeriesQuery
