import SeriesQuery.Proofs.Compile.Verbatim
import SeriesQuery.Proofs.Variable.Substitution

/-!
# The name of an event in the SQL

The name of an event is filled in while its call is expanded, and stands between quotes at the end
of the statement. There the later stages come over it like over any other text: what the SQL
compares with is the name after both of them (`Target.compile_event`). A name without known
references and without placeholders keeps its place, only on one line. It is a literal of that name
then, unless it holds a quote or a backslash, as nothing in it is escaped.
-/

namespace SeriesQuery

open Text

/-! ## Escaping nothing -/

/-- Escaping does not make a text shorter. -/
theorem Text.length_le_escape (s : Text) : s.length ≤ (escape s).length := by
  induction s with
  | nil => exact le_rfl
  | cons c s ih =>
    rw [escape_cons, List.length_append, List.length_cons]
    split
    · simp only [List.length_cons, List.length_nil]
      omega
    · simp only [List.length_cons, List.length_nil]
      omega

/-- A text is the inside of its own literal exactly if nothing in it has to be escaped. -/
theorem Text.escape_eq_self_iff {s : Text} : escape s = s ↔ '\'' ∉ s ∧ '\\' ∉ s := by
  induction s with
  | nil => simp
  | cons c s ih =>
    rw [escape_cons]
    split
    · next hc =>
      constructor
      · intro h
        have hlen := congrArg List.length h
        have hle := length_le_escape s
        simp only [List.length_append, List.length_cons, List.length_nil] at hlen
        omega
      · rintro ⟨hquote, hslash⟩
        rcases hc with rfl | rfl
        · exact absurd (List.mem_cons_self ..) hslash
        · exact absurd (List.mem_cons_self ..) hquote
    · next hc =>
      obtain ⟨hslash, hquote⟩ := not_or.1 hc
      rw [List.singleton_append, List.cons.injEq, List.mem_cons, List.mem_cons, ih]
      simp [Ne.symm hslash, Ne.symm hquote]

/-! ## Texts on one line -/

/-- The text with each of its line breaks turned into a space. -/
def Text.oneLine : Text → Text
  | [] => []
  | '\r' :: '\n' :: s => ' ' :: oneLine s
  | c :: s => (if c = '\r' ∨ c = '\n' then ' ' else c) :: oneLine s

/-- Only line breaks and spaces make a difference between a text and its one line. -/
theorem Text.mem_oneLine_iff {c : Char} (hspace : c ≠ ' ') (hbreak : c ≠ '\r' ∧ c ≠ '\n')
    (s : Text) : c ∈ oneLine s ↔ c ∈ s := by
  fun_induction oneLine s with
  | case1 => exact Iff.rfl
  | case2 s ih => simp [ih, hspace, hbreak]
  | case3 d s _ ih =>
    rw [List.mem_cons, List.mem_cons, ih]
    split
    · next hd =>
      have : c ≠ d := by
        rintro rfl
        exact hd.elim hbreak.1 hbreak.2
      simp [hspace, this]
    · rfl

namespace Symbols

variable (symbols : Symbols) {s : Text}

/-- Where no placeholder stands, rendering puts a text on one line and does nothing else. -/
theorem render_eq_oneLine (h : ∀ p : Placeholder, ¬ p.spelling <:+: s) :
    symbols.render s = oneLine s := by
  fun_induction oneLine s with
  | case1 => rfl
  | case2 s ih =>
    have htail := ih fun p hp => h p (hp.trans ⟨['\r', '\n'], [], by simp⟩)
    rw [← htail]
    exact symbols.render_lineBreak_append (b := .crlf) nofun
  | case3 c s hcrlf ih =>
    have htail := ih fun p hp => h p (hp.trans ⟨[c], [], by simp⟩)
    rw [← htail]
    split
    · next hbreak =>
      rcases hbreak with rfl | rfl
      · refine symbols.render_lineBreak_append (b := .cr) fun _ hhead => ?_
        obtain ⟨r, rfl⟩ := List.head?_eq_some_iff.1 hhead
        exact hcrlf r rfl rfl
      · exact symbols.render_lineBreak_append (b := .lf) nofun
    · next hbreak =>
      refine symbols.render_cons ?_
      cases hread : templateToken.read? (c :: s) with
      | none => rfl
      | some found =>
        obtain ⟨t, rest⟩ := found
        obtain ⟨he, -⟩ := TemplateToken.read?_eq_some_iff.1 hread
        cases t with
        | placeholder p => exact absurd ⟨[], rest, he.symm⟩ (h p)
        | lineBreak b =>
          cases b with
          | crlf | cr => exact absurd (.inl (List.head_eq_of_cons_eq he)) hbreak
          | lf => exact absurd (.inr (List.head_eq_of_cons_eq he)) hbreak

end Symbols

/-! ## The end of the statement -/

/-- The statement of an event up to the comparison with its name. -/
def Macro.eventFront (name : Text) (aggregation : Option Text) : Text :=
  "SELECT $timeSeries AS t, ".toList ++ qualifyColumns name (aggregation.getD defaultAggregation)
    ++ " AS ".toList ++ name ++ " FROM $table WHERE $timeFilter AND".toList

/-- The statement for an event is its front, the filter by its name, and its end. -/
theorem Macro.event_eq (name : Text) (aggregation : Option Text) :
    event name aggregation = eventFront name aggregation ++ ' ' :: ("event = '".toList ++ name)
      ++ "' GROUP BY t ORDER BY t".toList := by
  have hwhere : " FROM $table WHERE $timeFilter AND event = '".toList =
      " FROM $table WHERE $timeFilter AND".toList ++ ' ' :: "event = '".toList := by decide
  unfold event eventFront
  rw [hwhere]
  simp only [List.append_assoc, List.cons_append]

namespace Target

variable (t : Target) {registry : Registry} {request : Request} {c : Compiled}

/-- Behind its expansion, the name of an event goes through both stages like a text of its own. -/
theorem finish_event (time : TimeContext) (name : Text) (aggregation : Option Text) :
    ("event = '".toList ++ t.finish registry request time name
        ++ "' GROUP BY t ORDER BY t".toList) <:+
      t.finish registry request time (Macro.event name aggregation) := by
  have hback : IsVerbatim "' GROUP BY t ORDER BY t".toList := .of_allQuiet (by decide)
  have hquote : ∀ c ∈ "' GROUP BY t ORDER BY t".toList.head?,
      ¬ Reference.IsInner c ∧ c ≠ '[' := by
    rintro _ ⟨⟩
    decide
  rw [Macro.event_eq, t.finish_append_of_seam time hback hquote,
    t.finish_append_cons time (by decide) (by decide), t.finish_quiet_append time (by decide)]
  exact ⟨t.finish registry request time (Macro.eventFront name aggregation) ++ [' '], by simp⟩

end Target

/-- The text refers to no known variable and holds no placeholder. -/
structure IsSettled (registry : Registry) (scope : Scope) (s : Text) : Prop where
  unknown : ∀ r, .token r ∈ reference.segments s →
    scope.get? r.name = none ∧ registry.get? r.name = none
  noPlaceholder : ∀ p : Placeholder, ¬ p.spelling <:+: s

namespace Target

variable {t : Target} {registry : Registry} {request : Request} {c : Compiled}

/-- To such a text, both stages together do no more than to put it on one line. -/
theorem finish_of_isSettled (t : Target) (time : TimeContext) {s : Text}
    (h : IsSettled registry request.scope s) :
    t.finish registry request time s = oneLine s := by
  rw [finish, Registry.substitute_eq_self h.unknown, Symbols.render_eq_oneLine _ h.noPlaceholder]

/-- A call for an event compiles whatever its name is. -/
theorem compile_of_event {name n : Text} {aggregation : Option Text} {time : TimeContext}
    (hread : Macro.readCall t.query = .ok (some (.event name aggregation)))
    (htime : t.timeContext registry request = .ok time)
    (hn : registry.substitute request.scope .plain name = n) :
    ∃ c, t.compile registry request = .ok c ∧
      c.sql = t.finish registry request time (Macro.event n aggregation) := by
  subst hn
  exact ⟨_, compile_of_expandQuery htime (expandQuery_of_expand_ok hread rfl), rfl⟩

/-- The SQL of an event ends in a comparison with its name between quotes, as variables and
placeholders are filled into the name once more. With nothing to fill in, it is the name on one
line, which is the inside of its literal exactly if the name holds no quote and no backslash. -/
theorem compile_event {name n : Text} {aggregation : Option Text}
    (hread : Macro.readCall t.query = .ok (some (.event name aggregation)))
    (hn : n = registry.substitute request.scope .plain name)
    (hc : t.compile registry request = .ok c) :
    ∃ inside,
      ("event = '".toList ++ inside ++ "' GROUP BY t ORDER BY t".toList) <:+ c.sql ∧
      inside = t.finish registry request c.time n ∧
      (IsSettled registry request.scope n →
        inside = oneLine n ∧ (inside = escape (oneLine n) ↔ '\'' ∉ n ∧ '\\' ∉ n)) := by
  have hshows := shows_of_compile hc
  have houtcome : Outcome.ofQuery t.query = .expanded := by
    rw [Outcome.ofQuery, hread]
    rfl
  rw [houtcome] at hshows
  obtain ⟨call, text, hcall, hexpand, -, -, hsql⟩ := hshows
  rw [hread] at hcall
  cases hcall
  cases hexpand
  rw [hsql, ← hn]
  refine ⟨_, t.finish_event c.time n aggregation, rfl, fun h => ?_⟩
  rw [t.finish_of_isSettled c.time h]
  refine ⟨rfl, ?_⟩
  rw [eq_comm, escape_eq_self_iff, mem_oneLine_iff (by decide) (by decide),
    mem_oneLine_iff (by decide) (by decide)]

/-- A target for the events that a variable names. -/
def namedEvent : Target where
  query := "$event($name, sum(__size))".toList

end Target

/-- A registry with one name for events. -/
def Registry.ofName (name : Text) : Registry :=
  .ofVariables [{ name := "name".toList, current := .single name }]

namespace Target

/-- A dollar sign in the name of an event stays in the statement, and its line break becomes a
space. -/
theorem compile_event_namedEvent :
    ∃ c, namedEvent.compile (.ofName "user$x\nlogin".toList) .firstMinute = .ok c ∧
      "event = 'user$x login' GROUP BY t ORDER BY t".toList <:+ c.sql := by
  have hread : Macro.readCall namedEvent.query =
      .ok (some (.event "$name".toList (some "sum(__size)".toList))) := by decide +kernel
  have hname : "user$x\nlogin".toList =
      Registry.substitute (.ofName "user$x\nlogin".toList) .empty .plain "$name".toList := by
    decide +kernel
  have htime : namedEvent.timeContext (.ofName "user$x\nlogin".toList) .firstMinute =
      .ok ⟨0, 60, 30, true⟩ := by decide +kernel
  have hsettled : IsSettled (.ofName "user$x\nlogin".toList) .empty "user$x\nlogin".toList := by
    refine ⟨fun r hr => ?_, fun p => by cases p <;> decide +kernel⟩
    rw [show reference.segments "user$x\nlogin".toList = "user".toList.map .plain
      ++ .token ⟨.bare, "x".toList⟩ :: "\nlogin".toList.map .plain from by decide] at hr
    obtain rfl : r = ⟨.bare, "x".toList⟩ := by simpa using hr
    exact ⟨rfl, rfl⟩
  obtain ⟨c, hc, -⟩ := compile_of_event hread htime hname.symm
  have hline : "event = '".toList ++ oneLine "user$x\nlogin".toList
      ++ "' GROUP BY t ORDER BY t".toList =
        "event = 'user$x login' GROUP BY t ORDER BY t".toList := by decide
  obtain ⟨inside, hsuffix, -, hinside⟩ := compile_event hread hname hc
  rw [(hinside hsettled).1, hline] at hsuffix
  exact ⟨c, hc, hsuffix⟩

/-- A name with a placeholder in it, or with a quote, is not compared with as the name it is. -/
theorem compile_event_not_quoted :
    Macro.readCall namedEvent.query =
      .ok (some (.event "$name".toList (some "sum(__size)".toList))) ∧
    (Registry.substitute (.ofName "go$to".toList) .empty .plain "$name".toList = "go$to".toList ∧
      ∃ c, namedEvent.compile (.ofName "go$to".toList) .firstMinute = .ok c ∧
        ¬ ("event = '".toList ++ escape (oneLine "go$to".toList)
          ++ "' GROUP BY t ORDER BY t".toList) <:+ c.sql) ∧
    (Registry.substitute (.ofName "o'brien".toList) .empty .plain "$name".toList =
        "o'brien".toList ∧
      ∃ c, namedEvent.compile (.ofName "o'brien".toList) .firstMinute = .ok c ∧
        ¬ ("event = '".toList ++ escape (oneLine "o'brien".toList)
          ++ "' GROUP BY t ORDER BY t".toList) <:+ c.sql) := by
  have hread : Macro.readCall namedEvent.query =
      .ok (some (.event "$name".toList (some "sum(__size)".toList))) := by decide +kernel
  have hplaceholder : Registry.substitute (.ofName "go$to".toList) .empty .plain "$name".toList =
      "go$to".toList := by decide +kernel
  have hquote : Registry.substitute (.ofName "o'brien".toList) .empty .plain "$name".toList =
      "o'brien".toList := by decide +kernel
  have htime : namedEvent.timeContext (.ofName "go$to".toList) .firstMinute =
      .ok ⟨0, 60, 30, true⟩ := by decide +kernel
  have htime' : namedEvent.timeContext (.ofName "o'brien".toList) .firstMinute =
      .ok ⟨0, 60, 30, true⟩ := by decide +kernel
  obtain ⟨c, hc, hsql⟩ := compile_of_event hread htime hplaceholder
  obtain ⟨c', hc', hsql'⟩ := compile_of_event hread htime' hquote
  refine ⟨hread, ⟨hplaceholder, c, hc, ?_⟩, hquote, c', hc', ?_⟩
  · rw [hsql]
    decide +kernel
  · rw [hsql']
    decide +kernel

end Target

end SeriesQuery
