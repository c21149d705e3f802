import SeriesQuery.Macro.Expansion
import SeriesQuery.Proofs.Text.Keyword

/-!
# The clauses of a source

A source is the keyword FROM with a text behind it, then a WHERE clause or none, then a HAVING
clause or none (`Clauses`), in any letter case and with any white space around the keywords. The two
searches of an expansion cut it where its clauses meet: at HAVING for the clauses that have to stand
behind GROUP BY (`Clauses.splitHaving_text`), and at WHERE, in what is left, for the time filter
(`Clauses.withTimeFilter_front`). So the inner statement of pairs has all clauses in their order,
each with its text as it is written (`columns_clauses`), and no search comes into a HAVING clause.
-/

namespace SeriesQuery

open Text

/-! ## Pieces of a text -/

/-- White space that keeps two pieces of a text apart. -/
structure Text.Gap where
  text : Text
  ne_nil : text ≠ []
  isAllBlank : isAllBlank text

namespace Text

/-- White space is part of no word. -/
theorem Gap.not_isWordChar (g : Gap) : ∀ c ∈ g.text, ¬ isWordChar c := by
  intro c hc
  exact not_isWordChar_of_isBlank (isAllBlank_iff.1 g.isAllBlank c hc)

/-- What follows a gap does not go on with a word in front of it. -/
theorem Gap.not_isWordChar_head (g : Gap) (r : Text) :
    ∀ c ∈ (g.text ++ r).head?, ¬ isWordChar c := by
  intro c hc
  rw [List.head?_append_of_ne_nil _ g.ne_nil] at hc
  exact g.not_isWordChar c (List.mem_of_mem_head? hc)

/-- One space. -/
def Gap.space : Gap where
  text := [' ']
  ne_nil := by decide
  isAllBlank := by decide

/-- The text is these pieces in this order, with white space between neighbours. -/
inductive Spaced : List Text → Text → Prop
  | single (piece : Text) : Spaced [piece] piece
  | cons (piece : Text) (gap : Gap) {pieces : List Text} {rest : Text} (h : Spaced pieces rest) :
      Spaced (piece :: pieces) (piece ++ (gap.text ++ rest))

/-- Two pieces stand apart with a gap between them. -/
theorem Spaced.pair (piece piece' : Text) (gap : Gap) :
    Spaced [piece, piece'] (piece ++ (gap.text ++ piece')) := .cons piece gap (.single piece')

/-- Two such texts with a gap between them are one. -/
theorem Spaced.append {pieces pieces' : List Text} {s t : Text} (hs : Spaced pieces s) (gap : Gap)
    (ht : Spaced pieces' t) : Spaced (pieces ++ pieces') (s ++ (gap.text ++ t)) := by
  induction hs with
  | single piece => exact .cons piece gap ht
  | @cons piece gap' pieces rest _ ih =>
    rw [List.append_assoc, List.append_assoc]
    exact .cons piece gap' ih

end Text

namespace Macro

/-! ## Clauses -/

/-- A clause: its keyword in any letter case, white space, and its text. -/
structure Clause (k : Keyword) where
  word : Text
  gap : Gap
  body : Text
  spells : k.spells word
  notBlank : ¬ isAllBlank body
  trim_eq : trim body = body

namespace Clause

variable {k k' : Keyword} (c : Clause k)

def text : Text := c.word ++ (c.gap.text ++ c.body)

theorem body_ne_nil : c.body ≠ [] := by
  intro h
  exact c.notBlank (h ▸ isAllBlank_nil)

theorem hasBareEnds_body : HasBareEnds c.body := hasBareEnds_iff.2 c.trim_eq

theorem word_ne_nil : c.word ≠ [] := by
  intro h
  exact Keyword.not_spells_nil (h ▸ c.spells)

/-- A keyword has no blank at its ends, and so a clause has none. -/
theorem hasBareEnds_text : HasBareEnds c.text := by
  have hword : ∀ d ∈ c.word, ¬ isBlank d := fun d hd hblank =>
    not_isWordChar_of_isBlank hblank (Keyword.isWordChar_of_spells c.spells hd)
  have hends : HasBareEnds c.word :=
    ⟨fun d hd => hword d (List.mem_of_mem_head? hd),
      fun d hd => hword d (List.mem_of_mem_getLast? hd)⟩
  exact hends.surround c.hasBareEnds_body c.word_ne_nil c.body_ne_nil c.gap.text

/-- A text that ends in a clause ends in no blank. -/
theorem last_append (s : Text) : ∀ d ∈ (s ++ c.text).getLast?, ¬ isBlank d := by
  intro d hd
  have hne : c.text ≠ [] := List.append_ne_nil_of_left_ne_nil c.word_ne_nil _
  rw [List.getLast?_append_of_ne_nil _ hne] at hd
  exact c.hasBareEnds_text.last d hd

/-- The keyword of a clause is found behind a text without it, whatever follows the clause. -/
theorem split?_append_append {s : Text} (hs : k.split? s = none) (gap : Gap) (rest : Text) :
    k.split? (s ++ (gap.text ++ (c.text ++ rest))) =
      some ⟨s ++ gap.text, c.word, c.gap.text ++ (c.body ++ rest)⟩ := by
  have htext : c.text ++ rest = c.word ++ (c.gap.text ++ (c.body ++ rest)) := by
    rw [text, List.append_assoc, List.append_assoc]
  have hchars : ∀ d ∈ c.word, isWordChar d := fun d hd => Keyword.isWordChar_of_spells c.spells hd
  have hafter := c.gap.not_isWordChar_head (c.body ++ rest)
  have hlead : leadingWord (c.text ++ rest) = c.word := htext ▸ leadingWord_append hchars hafter
  have hrest : afterWord (c.text ++ rest) = c.gap.text ++ (c.body ++ rest) :=
    htext ▸ afterWord_append hchars hafter
  have hsplit : k.split? (c.text ++ rest) = some ⟨[], c.word, c.gap.text ++ (c.body ++ rest)⟩ := by
    rw [Keyword.split?, Keyword.splitFrom?_of_spells (hlead.symm ▸ c.spells), hlead, hrest]
  rw [Keyword.split?_gap_append hs gap.ne_nil gap.not_isWordChar, hsplit, Option.map_some,
    List.append_nil]

/-- A keyword that a text in front does not hold is found at its clause. -/
theorem split?_append {s : Text} (hs : k.split? s = none) (gap : Gap) :
    k.split? (s ++ (gap.text ++ c.text)) =
      some ⟨s ++ gap.text, c.word, c.gap.text ++ c.body⟩ := by
  simpa only [List.append_nil] using c.split?_append_append hs gap []

/-- The keyword of a clause is no other one. -/
theorem split?_word (hk : k' ≠ k) : k'.split? c.word = none := by
  rw [Keyword.split?_eq_none_iff]
  rintro ⟨before, word, after, he, hstands⟩
  -- All of the keyword is one word, so a whole word in it is the keyword itself.
  have hchars : ∀ d ∈ c.word, isWordChar d := fun d hd => Keyword.isWordChar_of_spells c.spells hd
  have hafter : after = [] := by
    cases after with
    | nil => rfl
    | cons d after =>
      refine absurd (hchars d ?_) (hstands.after d rfl)
      rw [he]
      exact List.mem_append_right _ (List.mem_cons_self ..)
  have hbefore : before = [] := by
    cases hlast : before.getLast? with
    | none => exact List.getLast?_eq_none_iff.1 hlast
    | some d =>
      refine absurd (hchars d ?_) (hstands.before d hlast)
      rw [he, List.append_assoc]
      exact List.mem_append_left _ (List.mem_of_mem_getLast? hlast)
  rw [hbefore, hafter, List.nil_append, List.append_nil] at he
  have hspelling : k'.spelling = k.spelling := by
    rw [← beq_iff_eq.1 hstands.spells, ← he, beq_iff_eq.1 c.spells]
  revert hk hspelling
  cases k' <;> cases k <;> decide

/-- A search for another keyword finds in a clause what it finds in its text. -/
theorem split?_text_eq_none (hk : k' ≠ k) (hbody : ¬ k'.OccursIn c.body) :
    k'.split? c.text = none := by
  rw [text, Keyword.split?_gap_append (c.split?_word hk) c.gap.ne_nil c.gap.not_isWordChar,
    Keyword.split?_eq_none_iff.2 hbody]
  rfl

end Clause

/-- A clause that may be there, with the white space in front of it. -/
def following {k : Keyword} (clause : Option (Gap × Clause k)) : Text :=
  clause.elim [] fun (gap, c) => gap.text ++ c.text

/-- The clauses of a source, with no keyword of a later one in an earlier one. -/
structure Clauses where
  source : Clause .fromClause
  condition : Option (Gap × Clause .whereClause)
  groupCondition : Option (Gap × Clause .havingClause)
  not_where_source : ¬ Keyword.whereClause.OccursIn source.body
  not_having_source : ¬ Keyword.havingClause.OccursIn source.body
  not_having_condition : ∀ c ∈ condition, ¬ Keyword.havingClause.OccursIn c.2.body

namespace Clauses

variable (q : Clauses)

/-- The clauses in front of HAVING. -/
def front : Text := q.source.text ++ following q.condition

/-- The source as it is written. -/
def text : Text := q.front ++ following q.groupCondition

/-- The condition with the time filter in front, or the filter alone. -/
def filtered : Text :=
  q.condition.elim " WHERE $timeFilter".toList fun (gap, c) =>
    gap.text ++ ("WHERE $timeFilter AND ".toList ++ c.body)

theorem last_front : ∀ d ∈ q.front.getLast?, ¬ isBlank d := by
  unfold front following
  cases q.condition with
  | none =>
    rw [Option.elim_none, List.append_nil]
    exact q.source.last_append []
  | some condition =>
    obtain ⟨gap, c⟩ := condition
    rw [Option.elim_some, ← List.append_assoc]
    exact c.last_append _

/-- No HAVING stands in front of the HAVING clause. -/
theorem split?_having_front : Keyword.havingClause.split? q.front = none := by
  have hsource := q.source.split?_text_eq_none (by decide) q.not_having_source
  have hnot := q.not_having_condition
  unfold front following
  cases hcondition : q.condition with
  | none => rwa [Option.elim_none, List.append_nil]
  | some condition =>
    obtain ⟨gap, c⟩ := condition
    rw [Option.elim_some, Keyword.split?_gap_append hsource gap.ne_nil gap.not_isWordChar,
      c.split?_text_eq_none (by decide) (hnot _ hcondition)]
    rfl

/-- The source is cut in front of its HAVING clause, which is moved as it is written. -/
theorem splitHaving_text : ∃ blanks, isAllBlank blanks ∧
    splitHaving q.text =
      (q.front ++ blanks, q.groupCondition.elim [] fun (_, c) => ' ' :: c.text) := by
  unfold splitHaving text following
  cases q.groupCondition with
  | none =>
    refine ⟨[], isAllBlank_nil, ?_⟩
    rw [Option.elim_none, List.append_nil, q.split?_having_front]
    rfl
  | some groupCondition =>
    obtain ⟨gap, c⟩ := groupCondition
    have htrim : trim (c.word ++ (c.gap.text ++ c.body)) = c.text :=
      hasBareEnds_iff.1 c.hasBareEnds_text
    refine ⟨gap.text, gap.isAllBlank, ?_⟩
    rw [Option.elim_some, c.split?_append q.split?_having_front gap]
    dsimp only
    rw [htrim]
    rfl

/-- The time filter goes into the WHERE clause, or into a new one behind the source. -/
theorem withTimeFilter_front {blanks : Text} (hblanks : isAllBlank blanks) :
    withTimeFilter (q.front ++ blanks) = q.source.text ++ q.filtered := by
  have hsource := q.source.split?_text_eq_none (by decide) q.not_where_source
  have hlast := q.last_front
  unfold withTimeFilter
  dsimp only
  rw [trimEnd_append hblanks, trimEnd_eq_self hlast]
  unfold front following filtered
  cases q.condition with
  | none =>
    rw [Option.elim_none, Option.elim_none, List.append_nil, hsource]
  | some condition =>
    obtain ⟨gap, c⟩ := condition
    have htrim : trimStart (c.gap.text ++ c.body) = c.body :=
      (trimStart_append c.gap.isAllBlank c.body).trans (trimStart_eq_self c.hasBareEnds_body.head)
    rw [Option.elim_some, Option.elim_some, c.split?_append hsource gap]
    dsimp only
    rw [htrim]
    simp only [List.append_assoc]

/-- The clauses of the inner statement of pairs, with the texts of the source in their places. -/
def pairPieces (key value keyName : Text) : List Text :=
  ["SELECT $timeSeries AS t,".toList, key ++ [','], value]
    ++ [q.source.word, q.source.body] ++ ["WHERE".toList, "$timeFilter".toList]
    ++ (q.condition.elim [] fun (_, c) => ["AND".toList, c.body])
    ++ ["GROUP BY t,".toList, keyName]
    ++ (q.groupCondition.elim [] fun (_, c) => [c.word, c.body]) ++ ["ORDER BY t".toList]

/-- The condition with the time filter, with the white space in front of it. -/
theorem exists_gap_filtered : ∃ (gap : Gap) (filter : Text), q.filtered = gap.text ++ filter ∧
    Spaced (["WHERE".toList, "$timeFilter".toList]
      ++ q.condition.elim [] fun (_, c) => ["AND".toList, c.body]) filter := by
  have hfilter : Spaced ["WHERE".toList, "$timeFilter".toList] "WHERE $timeFilter".toList :=
    .pair "WHERE".toList "$timeFilter".toList .space
  unfold filtered
  cases q.condition with
  | none => exact ⟨.space, "WHERE $timeFilter".toList, rfl, hfilter⟩
  | some condition =>
    obtain ⟨gap, c⟩ := condition
    have hand : Spaced ["AND".toList, c.body] ("AND ".toList ++ c.body) :=
      .pair "AND".toList c.body .space
    exact ⟨gap, _, rfl, hfilter.append .space hand⟩

/-- The clauses behind the time filter. -/
theorem spaced_group (keyName : Text) :
    Spaced (["GROUP BY t,".toList, keyName]
        ++ ((q.groupCondition.elim [] fun (_, c) => [c.word, c.body]) ++ ["ORDER BY t".toList]))
      ("GROUP BY t, ".toList ++ (keyName
        ++ ((q.groupCondition.elim [] fun (_, c) => ' ' :: c.text) ++ " ORDER BY t".toList))) := by
  have hgroup : Spaced ["GROUP BY t,".toList, keyName] ("GROUP BY t, ".toList ++ keyName) :=
    .pair "GROUP BY t,".toList keyName .space
  have horder : Spaced ["ORDER BY t".toList] "ORDER BY t".toList := .single _
  rw [← List.append_assoc ("GROUP BY t, ".toList)]
  cases q.groupCondition with
  | none => exact hgroup.append .space horder
  | some groupCondition =>
    obtain ⟨gap, c⟩ := groupCondition
    have hclause : Spaced [c.word, c.body] c.text := .pair c.word c.body c.gap
    exact hgroup.append .space (hclause.append .space horder)

end Clauses

/-- In the inner statement of pairs the clauses of the source stand in the order of SQL: the source,
the time filter, the condition, the grouping by the alias of the key, the condition on groups, the
order. Each keeps its text as it is written, whatever keywords a condition on groups holds. The
keywords FROM and HAVING keep their letter case too; nothing but the white space around them may
differ from one space. -/
theorem columns_clauses (q : Clauses) {key value keyName valueName : Text}
    (hkey : aliasOf key = .ok keyName) (hvalue : aliasOf value = .ok valueName) :
    ∃ inner, Spaced (q.pairPieces key value keyName) inner ∧
      columns key value q.text =
        .ok ("SELECT t, groupArray((".toList ++ keyName ++ ", ".toList ++ valueName
          ++ ")) AS groupArr FROM (".toList ++ inner ++ ") GROUP BY t ORDER BY t".toList) := by
  obtain ⟨blanks, hblanks, hsplit⟩ := q.splitHaving_text
  obtain ⟨gap, filter, hfiltered, hfilter⟩ := q.exists_gap_filtered
  have hselect : Spaced ["SELECT $timeSeries AS t,".toList, key ++ [','], value]
      ("SELECT $timeSeries AS t,".toList ++ (Gap.space.text ++ (key ++ [',']
        ++ (Gap.space.text ++ value)))) :=
    .cons _ .space (.pair _ value .space)
  have hsource : Spaced [q.source.word, q.source.body] q.source.text :=
    .pair q.source.word q.source.body q.source.gap
  have hinner := hselect.append .space (hsource.append gap
    (hfilter.append .space (q.spaced_group keyName)))
  refine ⟨_, by simpa only [Clauses.pairPieces, List.append_assoc] using hinner, ?_⟩
  unfold columns
  rw [hkey, hvalue, hsplit]
  refine congrArg Except.ok ?_
  dsimp only
  rw [q.withTimeFilter_front hblanks, hfiltered]
  simp only [List.append_assoc]
  rfl

/-- A source in three clauses over three lines, the last with a WHERE in it. -/
def nestedWhere : Clauses where
  source := {
    word := "from".toList
    gap := ⟨"  ".toList, by decide, by decide⟩
    body := "hits".toList
    spells := by decide
    notBlank := by decide
    trim_eq := by decide }
  condition := some (⟨"\n  ".toList, by decide, by decide⟩, {
    word := "Where".toList
    gap := ⟨"\t\t".toList, by decide, by decide⟩
    body := "kind = 'having_'".toList
    spells := by decide
    notBlank := by decide
    trim_eq := by decide })
  groupCondition := some (⟨"\r\n".toList, by decide, by decide⟩, {
    word := "HAVING".toList
    gap := .space
    body := "n > (SELECT m FROM u WHERE v)".toList
    spells := by decide
    notBlank := by decide
    trim_eq := by decide })
  not_where_source := Keyword.split?_eq_none_iff.1 (by decide)
  not_having_source := Keyword.split?_eq_none_iff.1 (by decide)
  not_having_condition := by
    rintro _ ⟨⟩
    exact Keyword.split?_eq_none_iff.1 (by decide)

/-- The clauses of a source over three lines, the last with a WHERE in it, find their places in the
inner statement. -/
theorem columns_clauses_nestedWhere :
    nestedWhere.text = "from  hits\n  Where\t\tkind = 'having_'\r\n".toList
      ++ "HAVING n > (SELECT m FROM u WHERE v)".toList ∧
    ∃ inner, columns "host h".toList "count() n".toList nestedWhere.text =
        .ok ("SELECT t, groupArray((h, n)) AS groupArr FROM (".toList ++ inner
          ++ ") GROUP BY t ORDER BY t".toList) ∧
      Spaced ["SELECT $timeSeries AS t,".toList, "host h,".toList, "count() n".toList,
        "from".toList, "hits".toList, "WHERE".toList, "$timeFilter".toList, "AND".toList,
        "kind = 'having_'".toList, "GROUP BY t,".toList, "h".toList, "HAVING".toList,
        "n > (SELECT m FROM u WHERE v)".toList, "ORDER BY t".toList] inner := by
  have hkey : aliasOf "host h".toList = .ok "h".toList := by decide
  have hvalue : aliasOf "count() n".toList = .ok "n".toList := by decide
  obtain ⟨inner, hspaced, hcolumns⟩ := columns_clauses nestedWhere hkey hvalue
  exact ⟨by decide, inner, hcolumns, hspaced⟩

end Macro

end SeriesQuery
