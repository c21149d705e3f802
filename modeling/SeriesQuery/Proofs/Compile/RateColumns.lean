import SeriesQuery.Proofs.Compile.Verbatim
import SeriesQuery.Proofs.Macro.Call
import SeriesQuery.Proofs.Variable.Substitution

/-!
# Rates of pairs from end to end

The macro `$rateColumns` is `$columns` with one more SELECT around it. This holds of the expansions
by definition (`rateColumns_eq_map`) and of compiled queries as well
(`Target.compile_rateColumns`), for every text behind the opening parenthesis. The two calls are
read alike or both fail (`readCall_columns_cases`), and the later stages copy the SELECT around the
statements (`Target.finish_rateOfPairs`): it holds no token, and no token reaches over its two
seams, whatever stands inside.
-/

namespace SeriesQuery

open Text Macro

/-! ## Reading the two calls -/

namespace Macro

/-- A source is found behind a call or not, whatever query an error reports. -/
theorem readSource_cases (query query' rest : Text) :
    (∃ source, readSource query rest = .ok source ∧ readSource query' rest = .ok source) ∨
      ∃ e e', readSource query rest = .error e ∧ readSource query' rest = .error e' := by
  unfold readSource
  cases Keyword.fromClause.split? rest with
  | none => exact .inr ⟨_, _, rfl, rfl⟩
  | some o => exact .inl ⟨_, rfl, rfl⟩

/-- The same arguments in front of the same text are those of both calls or of neither. -/
theorem readCallOf_columns_cases (query query' : Text) (args : List Text) (rest : Text) :
    (∃ key value source, readCallOf query .columns args rest = .ok (.columns key value source) ∧
        readCallOf query' .rateColumns args rest = .ok (.rateColumns key value source)) ∨
      ∃ e e', readCallOf query .columns args rest = .error e ∧
        readCallOf query' .rateColumns args rest = .error e' := by
  match args with
  | [key, value] =>
    rcases readSource_cases query query' rest with ⟨source, h, h'⟩ | ⟨e, e', h, h'⟩
    · exact .inl ⟨key, value, source, congrArg (Call.columns key value <$> ·) h,
        congrArg (Call.rateColumns key value <$> ·) h'⟩
    · exact .inr ⟨e, e', congrArg (Call.columns key value <$> ·) h,
        congrArg (Call.rateColumns key value <$> ·) h'⟩
  | [] | [_] | _ :: _ :: _ :: _ => exact .inr ⟨_, _, rfl, rfl⟩

/-- The same text behind the two heads is read as the two calls or as neither. -/
theorem readCall_columns_cases (body : Text) :
    (∃ key value source,
        readCall (Kind.columns.head ++ body) = .ok (some (.columns key value source)) ∧
        readCall (Kind.rateColumns.head ++ body) = .ok (some (.rateColumns key value source))) ∨
      ∃ e e', readCall (Kind.columns.head ++ body) = .error e ∧
        readCall (Kind.rateColumns.head ++ body) = .error e' := by
  rw [readCall_head, readCall_head]
  cases splitCall? (trimEnd body) with
  | none => exact .inr ⟨_, _, rfl, rfl⟩
  | some cut =>
    obtain ⟨inner, rest⟩ := cut
    dsimp only
    cases readArguments inner with
    | error e => exact .inr ⟨e, e, rfl, rfl⟩
    | ok args =>
      rcases readCallOf_columns_cases (Kind.columns.head ++ trimEnd body)
        (Kind.rateColumns.head ++ trimEnd body) args rest with
        ⟨key, value, source, h, h'⟩ | ⟨e, e', h, h'⟩
      · exact .inl ⟨key, value, source, congrArg (some <$> ·) h, congrArg (some <$> ·) h'⟩
      · exact .inr ⟨e, e', congrArg (some <$> ·) h, congrArg (some <$> ·) h'⟩

/-! ## Expanding them -/

/-- What stands in front of the pairs that `$rateColumns` divides. -/
def ratesFront : Text :=
  "SELECT t, arrayMap(a -> (a.1, a.2 / runningDifference(t/1000)), groupArr) FROM (".toList

/-- The SELECT around statements that give pairs. -/
def rateOfPairs (pairs : Text) : Text := ratesFront ++ pairs ++ [')']

/-- Rates in columns are expanded by way of pairs. -/
theorem rateColumns_eq_map (key value source : Text) :
    Macro.rateColumns key value source = (Macro.columns key value source).map rateOfPairs := by
  unfold Macro.rateColumns
  cases Macro.columns key value source <;> rfl

/-- The statements that give pairs start with SELECT. -/
theorem head?_of_columns {key value source pairs : Text}
    (h : Macro.columns key value source = .ok pairs) : pairs.head? = some 'S' := by
  obtain ⟨keyAlias, -, h⟩ := bind_eq_ok_iff.1 h
  obtain ⟨valueAlias, -, h⟩ := bind_eq_ok_iff.1 h
  cases h
  rfl

end Macro

/-! ## Filling them in -/

namespace Target

/-- The target with another query. -/
def withQuery (t : Target) (query : Text) : Target := { t with query }

section
variable (t : Target) {registry : Registry} {request : Request} {time : TimeContext}

/-- The stages behind the macro call copy the SELECT around statements. -/
theorem finish_rateOfPairs {pairs : Text} (h : pairs.head? = some 'S') :
    t.finish registry request time (rateOfPairs pairs) =
      rateOfPairs (t.finish registry request time pairs) := by
  have hfront : IsVerbatim ratesFront := .of_allQuiet (by decide)
  have hclose : IsVerbatim [')'] := .of_allQuiet (by decide)
  have hseam : ∀ c ∈ [')'].head?, ¬ Reference.IsInner c ∧ c ≠ '[' := by
    rintro _ ⟨⟩
    decide
  have hhead : ∀ c ∈ pairs.head?, c ≠ '[' := by
    rw [h]
    rintro _ ⟨⟩
    decide
  rw [rateOfPairs, t.finish_append_of_seam time hclose hseam, t.finish_append time hfront hhead,
    rateOfPairs]

end

/-- For every text behind the opening parenthesis, a query of `$columns` and one of `$rateColumns`
are both expanded or both left as they are written. Where they are expanded, the SQL of the second
is the SQL of the first with a SELECT around it. -/
theorem compile_rateColumns (t : Target) (registry : Registry) (request : Request)
    (time : TimeContext) (body : Text) (htime : t.timeContext registry request = .ok time) :
    ∃ pairs rates : Compiled,
      (t.withQuery ("$columns(".toList ++ body)).compile registry request = .ok pairs ∧
      (t.withQuery ("$rateColumns(".toList ++ body)).compile registry request = .ok rates ∧
      (((pairs.kind = some .columns ∧ pairs.fallback = none) ∧
          (rates.kind = some .rateColumns ∧ rates.fallback = none) ∧
          rates.sql =
            "SELECT t, arrayMap(a -> (a.1, a.2 / runningDifference(t/1000)), groupArr) FROM (".toList
              ++ pairs.sql ++ ")".toList) ∨
        ((pairs.kind = none ∧ pairs.fallback.isSome) ∧
          (rates.kind = none ∧ rates.fallback.isSome))) := by
  have hcolumns : "$columns(".toList = Kind.columns.head := by decide
  have hrates : "$rateColumns(".toList = Kind.rateColumns.head := by decide
  have htime' (query : Text) : (t.withQuery query).timeContext registry request = .ok time := htime
  rw [hcolumns, hrates]
  rcases readCall_columns_cases body with ⟨key, value, source, h, h'⟩ | ⟨e, e', h, h'⟩
  · have hmap := rateColumns_eq_map key value source
    cases hpairs : Macro.columns key value source with
    | ok pairs =>
      rw [hpairs] at hmap
      refine ⟨_, _, compile_of_expandQuery (htime' _) (expandQuery_of_expand_ok h hpairs),
        compile_of_expandQuery (htime' _) (expandQuery_of_expand_ok h' hmap),
        .inl ⟨⟨rfl, rfl⟩, ⟨rfl, rfl⟩, ?_⟩⟩
      exact t.finish_rateOfPairs (head?_of_columns hpairs)
    | error e =>
      rw [hpairs] at hmap
      exact ⟨_, _, compile_of_expandQuery (htime' _) (expandQuery_of_expand_error h hpairs),
        compile_of_expandQuery (htime' _) (expandQuery_of_expand_error h' hmap),
        .inr ⟨⟨rfl, rfl⟩, ⟨rfl, rfl⟩⟩⟩
  · exact ⟨_, _, compile_of_expandQuery (htime' _) (expandQuery_of_readCall_error h),
      compile_of_expandQuery (htime' _) (expandQuery_of_readCall_error h'),
      .inr ⟨⟨rfl, rfl⟩, ⟨rfl, rfl⟩⟩⟩

/-- A target whose table and column look like references and placeholders. -/
def lookalikeTable : Target where
  table := "[[a]]$to".toList
  dateColumn := "$table".toList

/-- The text behind the parenthesis of a call over a variable, with a HAVING clause. -/
def pairsBody : Text := "concat(host, '),') k, max([[a]]) $a) FROM $table HAVING k > 1\n".toList

/-- Rates are wrapped around pairs where the names of a table and a column look like references and
placeholders. -/
theorem compile_rateColumns_lookalikeTable :
    lookalikeTable.timeContext .ofLetter .firstMinute = .ok ⟨0, 60, 30, true⟩ ∧
    ∃ pairs rates : Compiled,
      (lookalikeTable.withQuery ("$columns(".toList ++ pairsBody)).compile .ofLetter .firstMinute =
        .ok pairs ∧
      (lookalikeTable.withQuery ("$rateColumns(".toList ++ pairsBody)).compile .ofLetter
        .firstMinute = .ok rates ∧
      rates.kind = some .rateColumns ∧
      rates.sql =
        "SELECT t, arrayMap(a -> (a.1, a.2 / runningDifference(t/1000)), groupArr) FROM (".toList
          ++ pairs.sql ++ ")".toList := by
  have htime : lookalikeTable.timeContext .ofLetter .firstMinute = .ok ⟨0, 60, 30, true⟩ := by
    decide +kernel
  have houtcome : Outcome.ofQuery ("$columns(".toList ++ pairsBody) = .expanded := by decide +kernel
  obtain ⟨pairs, rates, hpairs, hrates, h⟩ :=
    compile_rateColumns lookalikeTable .ofLetter .firstMinute _ pairsBody htime
  refine ⟨htime, pairs, rates, hpairs, hrates, ?_⟩
  rcases h with ⟨-, ⟨hkind, -⟩, hsql⟩ | ⟨⟨hnone, -⟩, -⟩
  · exact ⟨hkind, hsql⟩
  · have hshows := shows_of_compile hpairs
    rw [show (lookalikeTable.withQuery ("$columns(".toList ++ pairsBody)).query =
      "$columns(".toList ++ pairsBody from rfl, houtcome] at hshows
    obtain ⟨call, -, -, -, hcall, -⟩ := hshows
    rw [hnone] at hcall
    cases hcall

end Target

end SeriesQuery
