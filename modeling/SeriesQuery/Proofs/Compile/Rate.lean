import SeriesQuery.Proofs.Compile.Verbatim
import SeriesQuery.Proofs.Macro.Call
import SeriesQuery.Proofs.Macro.TimeFilter

/-!
# Rate queries from end to end

A `RateQuery` is a query of the form `$rate(e₁ a₁, …, eₙ aₙ) FROM s WHERE c`, with or without the
condition and with any blanks around its arguments, whose parts are copied by the stages behind the
macro call. Every such query is compiled as it is meant to be (`Target.compile_rateQuery`). Each
stage finds what the one before it left: the call is read (`RateQuery.readCall_text`), its arguments
have aliases and its source takes the time filter (`RateQuery.rate_eq`), and the two placeholders
are the only tokens of the expansion (`RateQuery.finish_sql`).
-/

namespace SeriesQuery

open Text Macro Nesting

/-! ## Arguments -/

/-- An argument of a rate query: an expression and its alias, with blanks around the two. -/
structure RateArgument where
  lead : Text
  expression : Text
  name : Text
  trail : Text
  isAllBlank_lead : isAllBlank lead
  isArgument : IsArgument expression
  isVerbatim : IsVerbatim expression
  name_ne_nil : name ≠ []
  isWordChar_of_mem_name : ∀ c ∈ name, isWordChar c
  isAllBlank_trail : isAllBlank trail

namespace RateArgument

variable (a : RateArgument)

/-- The expression and its alias. -/
def column : Text := a.expression ++ ' ' :: a.name

/-- The argument as it stands in a query. -/
def text : Text := a.lead ++ a.column ++ a.trail

/-- The column of the rate, named after the alias. -/
def rate : Text :=
  a.name ++ " / runningDifference(t/1000) AS ".toList ++ a.name ++ "Rate".toList

/-- An alias has no blanks. -/
theorem not_isBlank_of_mem_name {c : Char} (hc : c ∈ a.name) : ¬ isBlank c :=
  fun hb => not_isWordChar_of_isBlank hb (a.isWordChar_of_mem_name c hc)

/-- The last character of a column is one of its alias. -/
theorem mem_name_of_mem_getLast? {c : Char} (hc : c ∈ a.column.getLast?) : c ∈ a.name := by
  rw [column, List.getLast?_append_of_ne_nil _ (List.cons_ne_nil ' ' a.name),
    List.getLast?_cons_of_ne_nil a.name_ne_nil] at hc
  exact List.mem_of_mem_getLast? hc

/-- An expression with an alias is an argument like the expression itself. -/
theorem isArgument_column : IsArgument a.column := by
  -- The alias and the space in front of it move no scan and hold no comma.
  have hinert : ∀ c ∈ ' ' :: a.name, IsInert c ∧ c ≠ ',' := by
    rintro c (_ | ⟨_, hc⟩)
    · decide
    · have hword := a.isWordChar_of_mem_name c hc
      refine ⟨isInert_of_isWordChar hword, ?_⟩
      rintro rfl
      exact absurd hword (by decide)
  have hhead : ∀ c ∈ a.column.head?, ¬ isBlank c := by
    intro c hc
    refine (hasBareEnds_iff.2 a.isArgument.trim_eq).head c ?_
    rwa [column, List.head?_append_of_ne_nil _ a.isArgument.ne_nil] at hc
  refine ⟨⟨?_, fun hb => ?_, ?_⟩, trim_eq_self hhead fun c hc => ?_⟩
  · rw [column, Closed, scan_append, a.isArgument.isPiece.closed, Option.bind_some,
      scan_of_inert rfl fun c hc => (hinert c hc).1]
  · obtain ⟨c, hc⟩ := List.exists_mem_of_ne_nil _ a.name_ne_nil
    refine a.not_isBlank_of_mem_name hc (isAllBlank_iff.1 hb c ?_)
    exact List.mem_append_right _ (List.mem_cons_of_mem _ hc)
  · exact a.isArgument.isPiece.noTopComma.append fun c hc => (hinert c hc).2
  · exact a.not_isBlank_of_mem_name (a.mem_name_of_mem_getLast? hc)

/-- An alias is part of no token. -/
theorem allQuiet_name : AllQuiet a.name := fun c hc =>
  isQuiet_of_isWordChar (a.isWordChar_of_mem_name c hc)

/-- An argument is copied as it is. -/
theorem isVerbatim_column : IsVerbatim a.column := by
  have hspace : AllQuiet [' '] := by decide
  exact a.isVerbatim.append_quiet (hspace.append a.allQuiet_name)

/-- The column of a rate is copied as it is. -/
theorem isVerbatim_rate : IsVerbatim a.rate := by
  have hname := a.allQuiet_name
  exact .of_allQuiet (((hname.append (by decide)).append hname).append (by decide))

end RateArgument

/-! ## Queries -/

/-- A text that can stand between two keywords of a query: trimmed, not blank, and copied. -/
structure IsClause (s : Text) : Prop where
  notBlank : ¬ isAllBlank s
  trim_eq : trim s = s
  isVerbatim : IsVerbatim s

namespace IsClause

variable {s : Text} (h : IsClause s)
include h

theorem ne_nil : s ≠ [] := by
  rintro rfl
  exact h.notBlank isAllBlank_nil

/-- The text has no blank at its ends. -/
theorem hasBareEnds : HasBareEnds s := hasBareEnds_iff.2 h.trim_eq

end IsClause

/-- A rate query: its arguments, the blanks behind its parenthesis, its source and its condition. -/
structure RateQuery where
  args : List RateArgument
  gap : Text
  source : Text
  condition : Option Text
  args_ne_nil : args ≠ []
  isAllBlank_gap : isAllBlank gap
  isClause_source : IsClause source
  not_occursIn_source : ¬ Keyword.whereClause.OccursIn source
  isClause_condition : ∀ c ∈ condition, IsClause c

namespace RateQuery

variable (q : RateQuery)

/-- The query from the keyword FROM on: the source and the condition. -/
def clauses : Text :=
  "FROM ".toList ++ q.source ++ q.condition.elim [] (" WHERE ".toList ++ ·)

/-- The query as it is written. -/
def text : Text :=
  "$rate(".toList ++ (join [','] (q.args.map RateArgument.text) ++ ')' :: (q.gap ++ q.clauses))

/-- The statements that the query stands for, with these texts for the bucket expression and the
range condition. -/
def sql (series filter : Text) : Text :=
  "SELECT t, ".toList ++ join ", ".toList (q.args.map RateArgument.rate)
    ++ " FROM (SELECT ".toList ++ series ++ " AS t, ".toList
    ++ join ", ".toList (q.args.map RateArgument.column) ++ " FROM ".toList ++ q.source
    ++ " WHERE ".toList ++ filter ++ q.condition.elim [] (" AND ".toList ++ ·)
    ++ " GROUP BY t ORDER BY t)".toList

/-- The call that the query starts with. -/
def call : Call := .rate (q.args.map RateArgument.column) q.clauses

/-! ### Reading the call -/

/-- The clauses of a rate query are what can stand behind a call. -/
theorem isSource_clauses : IsSource q.clauses where
  spells := by
    have hfrom : "FROM ".toList = "FROM".toList ++ [' '] := by decide
    unfold clauses
    rw [hfrom, List.append_assoc, List.append_assoc, List.singleton_append,
      leadingWord_append_cons (by decide)]
    decide
  last := by
    unfold clauses
    intro c hc
    cases hcond : q.condition with
    | none =>
      rw [hcond, Option.elim_none, List.append_nil,
        List.getLast?_append_of_ne_nil _ q.isClause_source.ne_nil] at hc
      exact q.isClause_source.hasBareEnds.last c hc
    | some condition =>
      have hclause := q.isClause_condition condition hcond
      rw [hcond, Option.elim_some, ← List.append_assoc,
        List.getLast?_append_of_ne_nil _ hclause.ne_nil] at hc
      exact hclause.hasBareEnds.last c hc

/-- The call of a rate query can be read. -/
theorem readable_call : q.call.Readable where
  args_ne_nil := mt List.map_eq_nil_iff.1 q.args_ne_nil
  isArgument := by
    intro c hc
    obtain ⟨a, -, rfl⟩ := List.mem_map.1 hc
    exact a.isArgument_column
  isSource := by
    rintro _ ⟨⟩
    exact q.isSource_clauses

/-- The arguments as they stand in the query are pieces of the text between the parentheses. -/
theorem splits_args :
    Splits (join [','] (q.args.map RateArgument.text)) (q.args.map RateArgument.text) where
  ne_nil := mt List.map_eq_nil_iff.1 q.args_ne_nil
  isPiece := by
    intro p hp
    obtain ⟨a, -, rfl⟩ := List.mem_map.1 hp
    exact a.isArgument_column.isPiece.pad a.isAllBlank_lead a.isAllBlank_trail
  join_eq := rfl

/-- Without the blanks around them, the arguments are their columns. -/
theorem map_trim_args :
    (q.args.map RateArgument.text).map trim = q.args.map RateArgument.column := by
  rw [List.map_map]
  refine List.map_congr_left fun a _ => ?_
  show trim (a.lead ++ a.column ++ a.trail) = a.column
  rw [trim_blanks_append a.isAllBlank_lead a.isAllBlank_trail, a.isArgument_column.trim_eq]

/-- The call is read from the query. -/
theorem readCall_text : readCall q.text = .ok (some q.call) := by
  have hhead : "$rate(".toList = Kind.rate.head := by decide
  unfold text
  rw [hhead]
  exact q.readable_call.readCall_eq q.isAllBlank_gap q.splits_args q.map_trim_args

/-! ### Expanding it -/

/-- The alias of a column is its last word. -/
theorem aliasOf_column (a : RateArgument) : aliasOf a.column = .ok a.name := by
  have hlast : ¬ (a.column.getLast? = some ')' ∨ a.column = []) := by
    rintro (h | h)
    · exact absurd (a.isWordChar_of_mem_name _ (a.mem_name_of_mem_getLast? h)) (by decide)
    · exact a.isArgument_column.ne_nil h
  have hword : lastWord a.column = a.name :=
    lastWord_append (by decide) a.name_ne_nil (fun c hc => a.not_isBlank_of_mem_name hc) _
  simp only [aliasOf, a.isArgument_column.trim_eq, if_neg hlast, hword]

/-- The time filter goes in front of the condition. -/
theorem withTimeFilter_clauses :
    withTimeFilter q.clauses = "FROM ".toList ++ q.source ++ " WHERE $timeFilter".toList
      ++ q.condition.elim [] (" AND ".toList ++ ·) := by
  have hlast := q.isSource_clauses.last
  unfold clauses at *
  cases hcond : q.condition with
  | none =>
    rw [hcond, Option.elim_none, List.append_nil] at hlast
    rw [Option.elim_none, Option.elim_none, List.append_nil, List.append_nil,
      withTimeFilter_of_source q.not_occursIn_source hlast]
  | some condition =>
    have hclause := q.isClause_condition condition hcond
    have hfilter : " WHERE $timeFilter AND ".toList
        = " WHERE $timeFilter".toList ++ " AND ".toList := by
      decide
    rw [Option.elim_some, Option.elim_some, ← List.append_assoc,
      withTimeFilter_of_condition q.not_occursIn_source hclause.hasBareEnds hclause.ne_nil, hfilter]
    simp only [List.append_assoc]

/-- The call is expanded to the statements of the query over the two placeholders. -/
theorem rate_eq : Macro.rate (q.args.map RateArgument.column) q.clauses =
    .ok (q.sql Placeholder.timeSeries.spelling Placeholder.timeFilter.spelling) := by
  have hne : q.args.map RateArgument.column ≠ [] := mt List.map_eq_nil_iff.1 q.args_ne_nil
  have haliases : (q.args.map RateArgument.column).mapM aliasOf =
      .ok (q.args.map RateArgument.name) := by
    rw [List.mapM_map, show aliasOf ∘ RateArgument.column = fun a => pure a.name from
      funext aliasOf_column, List.mapM_pure]
    rfl
  have hrates : (q.args.map RateArgument.name).map (fun a =>
      a ++ " / runningDifference(t/1000) AS ".toList ++ a ++ "Rate".toList) =
        q.args.map RateArgument.rate := List.map_map
  have hseries : " FROM (SELECT $timeSeries AS t, ".toList =
      " FROM (SELECT ".toList ++ (Placeholder.timeSeries.spelling ++ " AS t, ".toList) := by decide
  have hfrom : " FROM ".toList = " ".toList ++ "FROM ".toList := by decide
  have hfilter : " WHERE $timeFilter".toList =
      " WHERE ".toList ++ Placeholder.timeFilter.spelling := by decide
  unfold Macro.rate sql
  rw [if_neg hne, haliases, withTimeFilter_clauses]
  refine congrArg Except.ok ?_
  rw [hrates, hseries, hfrom, hfilter]
  simp only [List.append_assoc]

/-! ### Filling it in -/

/-- The text of the statements in front of the bucket expression. -/
def front : Text :=
  "SELECT t, ".toList ++ join ", ".toList (q.args.map RateArgument.rate) ++ " FROM (SELECT ".toList

/-- The text between the bucket expression and the range condition. -/
def middle : Text :=
  " AS t, ".toList ++ join ", ".toList (q.args.map RateArgument.column) ++ " FROM ".toList
    ++ q.source ++ " WHERE ".toList

/-- The text behind the range condition. -/
def back : Text :=
  q.condition.elim [] (" AND ".toList ++ ·) ++ " GROUP BY t ORDER BY t)".toList

/-- The statements are three texts with the bucket expression and the range condition between
them. -/
theorem sql_eq (series filter : Text) :
    q.sql series filter = q.front ++ (series ++ (q.middle ++ (filter ++ q.back))) := by
  unfold sql front middle back
  simp only [List.append_assoc]

/-- What stands in front of the bucket expression is copied as it is. -/
theorem isVerbatim_front : IsVerbatim q.front := by
  refine (IsVerbatim.quiet_append (by decide) ?_).append_quiet (by decide)
  refine .join (by decide) (by decide) fun p hp => ?_
  obtain ⟨a, -, rfl⟩ := List.mem_map.1 hp
  exact a.isVerbatim_rate

/-- What stands between the bucket expression and the range condition is copied as it is. -/
theorem isVerbatim_middle : IsVerbatim q.middle := by
  refine ((IsVerbatim.quiet_append (by decide) ?_).glue q.isClause_source.isVerbatim (by decide)
    (by decide)).append_quiet (by decide)
  refine .join (by decide) (by decide) fun p hp => ?_
  obtain ⟨a, -, rfl⟩ := List.mem_map.1 hp
  exact a.isVerbatim_column

/-- What stands behind the range condition is copied as it is. -/
theorem isVerbatim_back : IsVerbatim q.back := by
  unfold back
  cases hcond : q.condition with
  | none => exact .of_allQuiet (by decide)
  | some c =>
    exact (IsVerbatim.quiet_append (by decide)
      (q.isClause_condition c hcond).isVerbatim).append_quiet (by decide)

/-- The stages behind the macro call fill in the two placeholders and nothing else. -/
theorem finish_sql (t : Target) {registry : Registry} {request : Request} (time : TimeContext)
    (hseries : registry.value? request.scope Placeholder.timeSeries.name = none)
    (hfilter : registry.value? request.scope Placeholder.timeFilter.name = none) :
    t.finish registry request time
        (q.sql Placeholder.timeSeries.spelling Placeholder.timeFilter.spelling) =
      q.sql ((t.symbols time).value .timeSeries) ((t.symbols time).value .timeFilter) := by
  have hmiddle (s : Text) : ∀ c ∈ (q.middle ++ s).head?, ¬ isWordChar c := by
    rintro _ ⟨⟩
    decide
  have hback : ∀ c ∈ q.back.head?, ¬ isWordChar c := by
    unfold back
    cases q.condition with
    | none | some =>
      rintro _ ⟨⟩
      decide
  rw [sql_eq, sql_eq, t.finish_append_placeholder time q.isVerbatim_front hseries (hmiddle _),
    t.finish_append_placeholder time q.isVerbatim_middle hfilter hback,
    t.finish_eq_self time q.isVerbatim_back]

end RateQuery

/-- A rate query is compiled to its statements, with the bucket expression and the range condition
of the target in them, whatever the blanks in it: the macro is found, and nothing falls back. -/
theorem Target.compile_rateQuery (q : RateQuery) (t : Target) (registry : Registry)
    (request : Request) (time : TimeContext) (hquery : t.query = q.text)
    (hseries : registry.value? request.scope "timeSeries".toList = none)
    (hfilter : registry.value? request.scope "timeFilter".toList = none)
    (htime : t.timeContext registry request = .ok time) :
    t.compile registry request = .ok {
      sql := q.sql ((t.symbols time).value .timeSeries) ((t.symbols time).value .timeFilter)
      kind := some .rate
      fallback := none
      time } := by
  have hread : readCall t.query = .ok (some q.call) := hquery ▸ q.readCall_text
  have hexpand : expandQuery (registry.substitute request.scope .plain) t.query = .ok
      { text := q.sql Placeholder.timeSeries.spelling Placeholder.timeFilter.spelling,
        kind := some .rate } :=
    expandQuery_of_expand_ok hread q.rate_eq
  rw [compile_of_expandQuery htime hexpand]
  dsimp only
  rw [q.finish_sql t time hseries hfilter]

/-- Two arguments, one with a parenthesis and a comma in a literal. -/
def RateQuery.errorsAndLoad : RateQuery where
  args := [{
      lead := " ".toList
      expression := "countIf(kind, '),')".toList
      name := "errors".toList
      trail := []
      isAllBlank_lead := by decide
      isArgument := by decide +kernel
      isVerbatim := .of_allQuiet (by decide)
      name_ne_nil := by decide
      isWordChar_of_mem_name := List.all_eq_true.1 (by decide)
      isAllBlank_trail := by decide }, {
      lead := "\n\t".toList
      expression := "max(load[1])".toList
      name := "load".toList
      trail := " ".toList
      isAllBlank_lead := by decide
      isArgument := by decide +kernel
      isVerbatim := ⟨by decide, by decide +kernel, by decide⟩
      name_ne_nil := by decide
      isWordChar_of_mem_name := List.all_eq_true.1 (by decide)
      isAllBlank_trail := by decide }]
  gap := "\n".toList
  source := "db.somewhere s".toList
  condition := some "kind IN ('a', 'b')".toList
  args_ne_nil := nofun
  isAllBlank_gap := by decide
  isClause_source := ⟨by decide, by decide, .of_allQuiet (by decide)⟩
  not_occursIn_source := Keyword.split?_eq_none_iff.1 (by decide +kernel)
  isClause_condition := by
    rintro _ ⟨⟩
    exact ⟨by decide, by decide, .of_allQuiet (by decide)⟩

/-- A target with that query. -/
def Target.errorsAndLoad : Target where
  query := "$rate( countIf(kind, '),') errors,\n\tmax(load[1]) load )\n".toList
    ++ "FROM db.somewhere s WHERE kind IN ('a', 'b')".toList

/-- A query with a literal in one of its two arguments is compiled into its statements. -/
theorem Target.compile_rateQuery_errorsAndLoad :
    errorsAndLoad.query = RateQuery.errorsAndLoad.text ∧
    ∃ time, errorsAndLoad.timeContext .empty .firstMinute = .ok time ∧
      errorsAndLoad.compile .empty .firstMinute = .ok {
        sql := RateQuery.errorsAndLoad.sql ((errorsAndLoad.symbols time).value .timeSeries)
          ((errorsAndLoad.symbols time).value .timeFilter)
        kind := some .rate
        fallback := none
        time } := by
  have hquery : errorsAndLoad.query = RateQuery.errorsAndLoad.text := by decide
  have htime : errorsAndLoad.timeContext .empty .firstMinute = .ok ⟨0, 60, 30, true⟩ := by
    decide +kernel
  exact ⟨hquery, _, htime,
    compile_rateQuery .errorsAndLoad errorsAndLoad .empty .firstMinute _ hquery rfl rfl htime⟩

end SeriesQuery
