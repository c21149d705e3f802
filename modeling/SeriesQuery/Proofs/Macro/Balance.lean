import SeriesQuery.Macro.Expansion
import SeriesQuery.Proofs.Macro.Call

/-!
# Balanced expansions

An expansion of a call is closed where its source is and its aliases fit in (`Call.Fits`): each
alias is closed, and where the source of a pair is cut at a HAVING, the alias of the key leaves the
scan where the cut does, which matters if the cut is inside a literal (`closed_of_expand`). Aliases
that hold no quote, parenthesis and backslash always fit (`Call.fits_of_neutral`). An alias is the
last word of its argument, however, so one that ends in a literal with a blank has a part of that
literal for an alias.

A closed text is passed over at every depth (`Nesting.Closed.scan_eq`), and the time filter of a
source does not move a scan of it (`Nesting.scan_withTimeFilter`), even one that starts or ends
inside a literal.
-/

namespace SeriesQuery

open Text

/-! ## Neutral texts -/

/-- A character that moves no scan, except that it takes one back from behind a backslash. -/
def IsNeutral (c : Char) : Prop := IsInert c ∧ c ≠ '\\'

instance (c : Char) : Decidable (IsNeutral c) := inferInstanceAs (Decidable (_ ∧ _))

/-- A text of such characters. -/
def AllNeutral (s : Text) : Prop := ∀ c ∈ s, IsNeutral c

instance (s : Text) : Decidable (AllNeutral s) :=
  decidable_of_iff (s.all fun c => IsNeutral c) List.all_iff_forall_prop

/-- Blanks move no scan. -/
theorem allNeutral_of_isAllBlank {s : Text} (h : isAllBlank s) : AllNeutral s := fun c hc =>
  have hblank := isInert_of_isBlank (isAllBlank_iff.1 h c hc)
  ⟨hblank.1, hblank.2.2⟩

/-- Words move no scan. -/
theorem isNeutral_of_isWordChar {c : Char} (h : isWordChar c) : IsNeutral c := by
  refine ⟨isInert_of_isWordChar h, ?_⟩
  rintro rfl
  exact absurd h (by decide)

namespace Nesting

/-- The state with no backslash just read. -/
def settle (n : Nesting) : Nesting :=
  match n.mode with
  | .escaped => { n with mode := .inside }
  | .inside | .outside => n

variable {n m : Nesting} {c : Char} {s t r : Text}

/-- A scan that has settled stays so. -/
@[simp]
theorem settle_settle (n : Nesting) : n.settle.settle = n.settle := by
  obtain ⟨depth, mode⟩ := n
  cases mode <;> rfl

/-- Whether a scan has settled does not depend on its level. -/
theorem settle_deeper (n : Nesting) : n.deeper.settle = n.settle.deeper := by
  obtain ⟨depth, mode⟩ := n
  cases mode <;> rfl

/-- A neutral character does nothing but settle a scan. -/
theorem advance_of_neutral (n : Nesting) (hc : IsNeutral c) : n.advance c = some n.settle := by
  obtain ⟨hinert, hslash⟩ := hc
  obtain ⟨depth, mode⟩ := n
  cases mode with
  | escaped => rfl
  | inside => simp only [advance, hslash, hinert.1, if_false, settle]
  | outside => exact advance_of_inert rfl hinert

/-- A neutral text leaves a scan that is not behind a backslash where it is. -/
theorem scan_settle_of_neutral (n : Nesting) (hs : AllNeutral s) :
    n.settle.scan s = some n.settle := by
  induction s with
  | nil => exact scan_nil _
  | cons c s ih =>
    rw [scan_cons, advance_of_neutral _ (hs c (List.mem_cons_self ..)), settle_settle,
      Option.bind_some]
    exact ih fun d hd => hs d (List.mem_cons_of_mem c hd)

/-- A neutral text that is not empty takes a scan back from behind a backslash at most. -/
theorem scan_neutral_append (n : Nesting) (hs : AllNeutral s) (hne : s ≠ []) (r : Text) :
    n.scan (s ++ r) = n.settle.scan r := by
  obtain ⟨c, s, rfl⟩ := List.exists_cons_of_ne_nil hne
  have hsettle := scan_settle_of_neutral n fun d hd => hs d (List.mem_cons_of_mem c hd)
  rw [List.cons_append, scan_cons, advance_of_neutral _ (hs c (List.mem_cons_self ..)),
    Option.bind_some, scan_append, hsettle, Option.bind_some]

/-- A space does nothing but settle a scan. -/
theorem scan_space_cons (n : Nesting) (r : Text) : n.scan (' ' :: r) = n.settle.scan r :=
  n.scan_neutral_append (s := [' ']) (by decide) (by decide) r

/-- Blanks around a text do not matter to a scan that goes on outside literals. -/
theorem scan_trim (hn : n.settle = n) (h : n.scan s = some m) (hm : m.mode = .outside) :
    n.scan (trim s) = some m := by
  obtain ⟨b, b', hb, hb', he⟩ := exists_blanks_trim s
  have hfront : n.scan b = some n := by
    have := scan_settle_of_neutral n (allNeutral_of_isAllBlank hb)
    rwa [hn] at this
  rw [he, List.append_assoc, scan_append, hfront, Option.bind_some, scan_append] at h
  obtain ⟨k, hk, hback⟩ := Option.bind_eq_some_iff.1 h
  rwa [eq_of_scan_blanks hb' hback hm] at hk

/-! ## Closed texts at every depth -/

/-- A scan of two texts goes on behind the first where that ended. -/
theorem scan_append_of (h : n.scan s = some m) (t : Text) : n.scan (s ++ t) = m.scan t := by
  rw [scan_append, h, Option.bind_some]

/-- Texts that are scanned alike are so behind a text. -/
theorem scan_append_congr (s : Text) (h : ∀ m : Nesting, m.scan t = m.scan r) :
    n.scan (s ++ t) = n.scan (s ++ r) := by
  rw [scan_append, scan_append]
  exact congrArg (n.scan s).bind (funext h)

/-- A parenthesis around a text takes a scan of it one level deeper. -/
theorem scan_deeper : ∀ {s : Text} {n : Nesting},
    n.scan s = some m → n.deeper.scan s = some m.deeper
  | [], _, h => by
    cases h
    rfl
  | c :: s, n, h => by
    rw [scan_cons] at h
    obtain ⟨k, hk, h⟩ := Option.bind_eq_some_iff.1 h
    rw [scan_cons, advance_deeper hk, Option.bind_some, scan_deeper h]

/-- A closed text leaves every scan where it is outside literals. -/
theorem Closed.scan_eq (hs : Closed s) : ∀ depth, scan ⟨depth, .outside⟩ s = some ⟨depth, .outside⟩
  | 0 => hs
  | depth + 1 => scan_deeper (hs.scan_eq depth)

end Nesting

namespace Macro

open Nesting

/-! ## The clauses of a source -/

/-- The keyword that a text is cut at moves no scan. -/
theorem allNeutral_of_split? {k : Keyword} {s : Text} {o : Keyword.Occurrence}
    (h : k.split? s = some o) : AllNeutral o.word ∧ o.word ≠ [] := by
  obtain ⟨hstands, -⟩ := Keyword.standsBetween_of_splitFrom? h
  refine ⟨fun c hc => isNeutral_of_isWordChar (Keyword.isWordChar_of_spells hstands.spells hc), ?_⟩
  intro he
  exact Keyword.not_spells_nil (he ▸ hstands.spells)

/-- In front of a space, the blanks at the end of a text do not matter to a scan. -/
theorem scan_trimEnd_space (n : Nesting) (s r : Text) :
    n.scan (trimEnd s ++ ' ' :: r) = n.scan (s ++ ' ' :: r) := by
  obtain ⟨b, hb, hs⟩ := exists_blanks_trimEnd s
  have hneutral : AllNeutral (b ++ [' ']) :=
    List.forall_mem_append.2 ⟨allNeutral_of_isAllBlank hb, (by decide : AllNeutral [' '])⟩
  conv_rhs => rw [hs, List.append_assoc]
  refine scan_append_congr _ fun m => ?_
  rw [show b ++ ' ' :: r = b ++ [' '] ++ r by simp, m.scan_neutral_append hneutral (by simp)]
  exact m.scan_space_cons r

/-- A scan of a query with the time filter in it ends where one of the query does, if a space
follows. -/
theorem scan_withTimeFilter (n : Nesting) (query r : Text) :
    n.scan (withTimeFilter query ++ ' ' :: r) = n.scan (query ++ ' ' :: r) := by
  rw [← scan_trimEnd_space n query]
  unfold withTimeFilter
  dsimp only
  cases ho : Keyword.whereClause.split? (trimEnd query) with
  | none =>
    dsimp only
    rw [List.append_assoc]
    refine scan_append_congr _ fun m => ?_
    rw [m.scan_neutral_append (by decide) (by decide), scan_space_cons, scan_space_cons,
      settle_settle]
  | some o =>
    -- The keyword is replaced by its own spelling, the filter and AND, all of them neutral.
    obtain ⟨hword, hne⟩ := allNeutral_of_split? ho
    obtain ⟨b, hb, hrest⟩ := exists_blanks_trimStart o.rest
    dsimp only
    rw [← Keyword.splitFrom?_append ho]
    simp only [List.append_assoc]
    refine scan_append_congr _ fun m => ?_
    rw [m.scan_neutral_append (by decide) (by decide), m.scan_neutral_append hword hne]
    conv_rhs => rw [hrest, List.append_assoc]
    rw [scan_append_of (m.scan_settle_of_neutral (allNeutral_of_isAllBlank hb))]

/-- A closed source is cut in a state from which its HAVING clause goes back to the outermost level,
also if the cut is inside a literal. -/
theorem scan_splitHaving {source : Text} (h : Closed source) :
    ∃ n, top.scan (splitHaving source).1 = some n ∧
      n.settle.scan (splitHaving source).2 = some top := by
  unfold splitHaving
  cases ho : Keyword.havingClause.split? source with
  | none => exact ⟨top, h, rfl⟩
  | some o =>
    obtain ⟨hword, hne⟩ := allNeutral_of_split? ho
    rw [Closed, ← Keyword.splitFrom?_append ho, List.append_assoc, scan_append] at h
    obtain ⟨n, hn, hrest⟩ := Option.bind_eq_some_iff.1 h
    refine ⟨n, hn, ?_⟩
    rw [n.scan_neutral_append hword hne, ← settle_settle,
      ← n.settle.scan_neutral_append hword hne] at hrest
    dsimp only
    rw [scan_cons, advance_of_neutral _ (by decide), settle_settle, Option.bind_some]
    exact scan_trim (settle_settle n) hrest rfl

/-! ## Expansions -/

/-- A comma and a space outside literals leave a scan where it is. -/
theorem scan_comma (depth : ℕ) : scan ⟨depth, .outside⟩ ", ".toList = some ⟨depth, .outside⟩ :=
  scan_of_inert rfl (by decide)

/-- The alias of an argument is its last word. -/
theorem IsArgument.eq_of_aliasOf {a name : Text} (h : IsArgument a) (hname : aliasOf a = .ok name) :
    name = lastWord a := by
  rw [aliasOf, h.trim_eq] at hname
  split at hname
  · cases hname
  · cases hname
    rfl

/-- The aliases of arguments are their last words. -/
theorem eq_map_of_mapM_aliasOf : ∀ {args names : List Text}, (∀ a ∈ args, IsArgument a) →
    args.mapM aliasOf = .ok names → names = args.map lastWord
  | [], names, _, hnames => by
    cases hnames
    rfl
  | a :: args, names, h, hnames => by
    rw [List.mapM_cons] at hnames
    obtain ⟨name, hname, hnames⟩ := bind_eq_ok_iff.1 hnames
    obtain ⟨rest, hrest, he⟩ := bind_eq_ok_iff.1 hnames
    cases he
    rw [List.map_cons, (h a (List.mem_cons_self ..)).eq_of_aliasOf hname,
      eq_map_of_mapM_aliasOf (fun b hb => h b (List.mem_cons_of_mem a hb)) hrest]

/-- The alias leaves a scan of the source where it is at the HAVING that the source is cut at. -/
def FitsCut (source name : Text) : Prop :=
  ∀ n, top.scan (splitHaving source).1 = some n → n.settle.scan name = some n.settle

/-- The inner statement of pairs ends where it begins, one parenthesis deep. -/
theorem scan_clauses {source name : Text} (hsource : Closed source) (hcut : FitsCut source name) :
    scan ⟨1, .outside⟩ (withTimeFilter (splitHaving source).1 ++ (" GROUP BY t, ".toList
      ++ (name ++ (splitHaving source).2))) = some ⟨1, .outside⟩ := by
  obtain ⟨n, hn, hhaving⟩ := scan_splitHaving hsource
  have hbefore : scan ⟨1, .outside⟩ (splitHaving source).1 = some n.deeper := scan_deeper hn
  have hgroup : " GROUP BY t, ".toList = ' ' :: "GROUP BY t, ".toList := by decide
  rw [hgroup, List.cons_append, scan_withTimeFilter, ← List.cons_append, ← hgroup,
    scan_append_of hbefore, scan_neutral_append _ (by decide) (by decide), settle_deeper,
    scan_append_of (scan_deeper (hcut n hn))]
  exact scan_deeper hhaving

/-- The statements that pairs are expanded to, over the aliases of their arguments. -/
theorem exists_of_columns {key value source text : Text} (h : columns key value source = .ok text) :
    ∃ keyName valueName, aliasOf key = .ok keyName ∧ aliasOf value = .ok valueName ∧
      text = "SELECT t, groupArray((".toList ++ (keyName ++ (", ".toList ++ (valueName
        ++ (")) AS groupArr FROM (SELECT $timeSeries AS t, ".toList ++ (key ++ (", ".toList
        ++ (value ++ (" ".toList ++ ((withTimeFilter (splitHaving source).1
        ++ (" GROUP BY t, ".toList ++ (keyName ++ (splitHaving source).2)))
        ++ " ORDER BY t) GROUP BY t ORDER BY t".toList))))))))) := by
  obtain ⟨keyName, hkeyName, h⟩ := bind_eq_ok_iff.1 h
  obtain ⟨valueName, hvalueName, h⟩ := bind_eq_ok_iff.1 h
  refine ⟨keyName, valueName, hkeyName, hvalueName, ?_⟩
  cases hsplit : splitHaving source with
  | mk before having =>
    rw [hsplit] at h
    cases h
    simp only [List.append_assoc]

/-- Pairs of columns are closed if their arguments, aliases and source are, and the cut of the
source fits. -/
theorem closed_of_columns {key value source text : Text} (hkey : IsArgument key)
    (hvalue : IsArgument value) (hsource : Closed source) (hkeyName : Closed (lastWord key))
    (hvalueName : Closed (lastWord value)) (hcut : FitsCut source (lastWord key))
    (h : columns key value source = .ok text) : Closed text := by
  obtain ⟨keyName, valueName, hkeyAlias, hvalueAlias, rfl⟩ := exists_of_columns h
  obtain rfl := hkey.eq_of_aliasOf hkeyAlias
  obtain rfl := hvalue.eq_of_aliasOf hvalueAlias
  have hopen : top.scan "SELECT t, groupArray((".toList = some ⟨2, .outside⟩ := by decide
  have hinner : scan ⟨2, .outside⟩ ")) AS groupArr FROM (SELECT $timeSeries AS t, ".toList =
      some ⟨1, .outside⟩ := by decide
  have hspace : scan ⟨1, .outside⟩ " ".toList = some ⟨1, .outside⟩ := by decide
  have hclose : scan ⟨1, .outside⟩ " ORDER BY t) GROUP BY t ORDER BY t".toList = some top := by
    decide
  rw [Closed, scan_append_of hopen, scan_append_of (hkeyName.scan_eq 2),
    scan_append_of (scan_comma 2), scan_append_of (hvalueName.scan_eq 2), scan_append_of hinner,
    scan_append_of (hkey.isPiece.closed.scan_eq 1), scan_append_of (scan_comma 1),
    scan_append_of (hvalue.isPiece.closed.scan_eq 1), scan_append_of hspace,
    scan_append_of (scan_clauses hsource hcut), hclose]

/-- Rates in columns are closed if their pairs are. -/
theorem closed_of_rateColumns {key value source pairs text : Text}
    (hpairs : columns key value source = .ok pairs) (hclosed : Closed pairs)
    (h : rateColumns key value source = .ok text) : Closed text := by
  rw [rateColumns, hpairs] at h
  cases h
  have hopen : top.scan
      "SELECT t, arrayMap(a -> (a.1, a.2 / runningDifference(t/1000)), groupArr) FROM (".toList =
        some ⟨1, .outside⟩ := by decide
  rw [Closed, List.append_assoc, scan_append_of hopen, scan_append_of (hclosed.scan_eq 1)]
  decide

/-- Rates are closed if their arguments, aliases and source are. -/
theorem closed_of_rate {args : List Text} {source text : Text} (hargs : ∀ a ∈ args, IsArgument a)
    (hsource : Closed source) (hnames : ∀ a ∈ args, Closed (lastWord a))
    (h : rate args source = .ok text) : Closed text := by
  rw [rate] at h
  split at h
  · cases h
  · obtain ⟨names, hmap, h⟩ := bind_eq_ok_iff.1 h
    obtain rfl := eq_map_of_mapM_aliasOf hargs hmap
    cases h
    have hselect : top.scan "SELECT t, ".toList = some top := by decide
    have hinner : top.scan " FROM (SELECT $timeSeries AS t, ".toList = some ⟨1, .outside⟩ := by
      decide
    have hspace : scan ⟨1, .outside⟩ " ".toList = some ⟨1, .outside⟩ := by decide
    have hclose : scan ⟨1, .outside⟩ " GROUP BY t ORDER BY t)".toList = some top := by decide
    have hrate : top.scan " / runningDifference(t/1000) AS ".toList = some top := by decide
    have hsuffix : top.scan "Rate".toList = some top := by decide
    have hrates : top.scan (join ", ".toList ((args.map lastWord).map fun name =>
        name ++ (" / runningDifference(t/1000) AS ".toList ++ (name ++ "Rate".toList)))) =
          some top := by
      refine scan_join (n := top) (scan_comma 0) fun p hp => ?_
      obtain ⟨name, hname, rfl⟩ := List.mem_map.1 hp
      obtain ⟨a, ha, rfl⟩ := List.mem_map.1 hname
      have hclosed : top.scan (lastWord a) = some top := hnames a ha
      rw [scan_append_of hclosed, scan_append_of hrate, scan_append_of hclosed, hsuffix]
    have hcolumns : scan ⟨1, .outside⟩ (join ", ".toList args) = some ⟨1, .outside⟩ :=
      scan_join (scan_comma 1) fun a ha => (hargs a ha).isPiece.closed.scan_eq 1
    have hgroup : " GROUP BY t ORDER BY t)".toList = ' ' :: "GROUP BY t ORDER BY t)".toList := by
      decide
    simp only [Closed, List.append_assoc]
    rw [scan_append_of hselect, scan_append_of hrates, scan_append_of hinner,
      scan_append_of hcolumns, scan_append_of hspace, hgroup, scan_withTimeFilter,
      scan_append_of (hsource.scan_eq 1), ← hgroup, hclose]

/-- The aliases of a call are closed and fit into the clauses of its source. -/
structure Call.Fits (call : Call) : Prop where
  closed : ∀ a ∈ call.args, Closed (lastWord a)
  fitsCut : match call with
    | .columns key _ source | .rateColumns key _ source => FitsCut source (lastWord key)
    | .rate .. | .event .. => True

/-- Aliases without quotes, parentheses and backslashes fit into every source. -/
theorem Call.fits_of_neutral {call : Call} (h : ∀ a ∈ call.args, AllNeutral (lastWord a)) :
    call.Fits where
  closed a ha := scan_of_inert rfl fun c hc => (h a ha c hc).1
  fitsCut := by
    cases call with
    | columns key value source | rateColumns key value source =>
      exact fun n _ => n.scan_settle_of_neutral (h key (List.mem_cons_self ..))
    | rate | event => trivial

/-- Whatever a call over a closed source is expanded to is closed, if its aliases fit. -/
theorem closed_of_expand {query source text : Text} {call : Call} {resolveName : Text → Text}
    (hread : readCall query = .ok (some call)) (hsource : call.source? = some source)
    (hclosed : Closed source) (hfits : call.Fits) (h : call.expand resolveName = .ok text) :
    Closed text := by
  have hargs := (readable_of_readCall hread).isArgument
  obtain ⟨hnames, hcut⟩ := hfits
  have hpairs {key value pairs : Text} (hmem : ∀ a ∈ [key, value], a ∈ call.args)
      (hcut : FitsCut source (lastWord key)) (h : columns key value source = .ok pairs) :
      Closed pairs := by
    have hkey := hmem key (List.mem_cons_self ..)
    have hvalue := hmem value (List.mem_cons_of_mem _ (List.mem_cons_self ..))
    exact closed_of_columns (hargs _ hkey) (hargs _ hvalue) hclosed (hnames _ hkey)
      (hnames _ hvalue) hcut h
  cases call with
  | columns key value source' =>
    cases hsource
    exact hpairs (fun _ ha => ha) hcut h
  | rateColumns key value source' =>
    cases hsource
    obtain ⟨pairs, hcolumns, -⟩ := bind_eq_ok_iff.1 h
    exact closed_of_rateColumns hcolumns (hpairs (fun _ ha => ha) hcut hcolumns) h
  | rate args source' =>
    cases hsource
    exact closed_of_rate hargs hclosed hnames h
  | event => cases hsource

/-- A call whose source is cut at a HAVING in a literal. -/
def quotedHaving : Call :=
  .columns "concat('(', a) k".toList "max(x) v".toList
    "FROM t WHERE n = 'a having b' AND (p)".toList

/-- A source that is cut at a HAVING in a literal can be expanded to a closed text. -/
theorem closed_of_expand_quotedHaving :
    readCall quotedHaving.print = .ok (some quotedHaving) ∧
    ∃ text, quotedHaving.expand id = .ok text ∧ Closed text := by
  have hread : readCall quotedHaving.print = .ok (some quotedHaving) := by decide +kernel
  have hfits : quotedHaving.Fits := Call.fits_of_neutral (by decide)
  cases hexpand : quotedHaving.expand id with
  | error e => cases hexpand
  | ok text => exact ⟨hread, text, rfl, closed_of_expand hread rfl (by decide) hfits hexpand⟩

/-- An argument that ends in a literal with a blank has a part of that literal for an alias, and the
expansion is not closed. -/
theorem not_closed_of_quotedBlank :
    ∃ call source text, readCall "$columns('x y', count() c) FROM t".toList = .ok (some call) ∧
      call.source? = some source ∧ Closed source ∧ call.expand id = .ok text ∧ ¬ Closed text := by
  have hread : readCall "$columns('x y', count() c) FROM t".toList =
      .ok (some (.columns "'x y'".toList "count() c".toList "FROM t".toList)) := by decide +kernel
  cases hexpand : columns "'x y'".toList "count() c".toList "FROM t".toList with
  | error e => cases hexpand
  | ok text =>
    refine ⟨_, _, text, hread, rfl, by decide, hexpand, ?_⟩
    cases hexpand
    decide +kernel

end Macro

end SeriesQuery
