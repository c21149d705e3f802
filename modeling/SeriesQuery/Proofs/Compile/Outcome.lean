import Mathlib.Control.Monad.Basic
import Mathlib.Logic.ExistsUnique
import SeriesQuery.Compile
import SeriesQuery.Proofs.Failure

/-!
# What a compilation does with a macro call

A compilation fails where its time values do, and nowhere else: every error of the macro call is
recoverable (`SeriesQuery.Proofs.Failure`). Otherwise it shows one of three outcomes
(`Target.Shows`), and the query alone decides which (`Outcome.ofQuery`): the name of an event is
filled in from the variables while its call is expanded, but no name makes that expansion fail.
`Target.compile_outcome` puts this together.
-/

namespace SeriesQuery

open Text Macro

/-- What became of the macro call that a query may start with. -/
inductive Outcome
  /-- The query starts with a call, which was expanded. -/
  | expanded
  /-- The query starts with no call. -/
  | asWritten
  /-- The query starts with a call that could not be read or expanded. -/
  | fellBack
  deriving DecidableEq, Repr

/-- The outcome of a query. -/
def Outcome.ofQuery (query : Text) : Outcome :=
  match readCall query with
  | .error _ => .fellBack
  | .ok none => .asWritten
  | .ok (some call) =>
    match call.expand id with
    | .error _ => .fellBack
    | .ok _ => .expanded

/-! ## Expansion and the names of events -/

/-- Whether an expansion fails, and how, does not hang on the names of events. -/
theorem expand_eq_error_iff (r r' : Text → Text) {call : Call} {e : QueryError} :
    call.expand r = .error e ↔ call.expand r' = .error e := by
  cases call with
  | event name aggregation =>
    constructor <;> exact nofun
  | columns | rateColumns | rate => exact Iff.rfl

/-- An expansion that succeeds for some names of events succeeds for all. -/
theorem expand_eq_ok_of {r : Text → Text} {call : Call} {text : Text}
    (h : call.expand r = .ok text) (r' : Text → Text) : ∃ text', call.expand r' = .ok text' := by
  cases h' : call.expand r' with
  | ok text' => exact ⟨text', rfl⟩
  | error e =>
    rw [expand_eq_error_iff r' r, h] at h'
    cases h'

section
variable {r : Text → Text} {query : Text}

/-- An error of reading the call leaves the query as it is written. -/
theorem expandQuery_of_readCall_error {e : QueryError} (h : readCall query = .error e) :
    expandQuery r query = .ok { text := query, fallback := some e.message } := by
  have hcall : expandCall r query = .error e := by
    rw [expandCall, h]
    rfl
  rw [expandQuery, hcall]
  exact if_pos (readCall_failsWith query e h)

/-- A query that starts with no call stays as it is written. -/
theorem expandQuery_of_readCall_none (h : readCall query = .ok none) :
    expandQuery r query = .ok { text := query } := by
  have hcall : expandCall r query = .ok none := by
    rw [expandCall, h]
    rfl
  rw [expandQuery, hcall]

/-- A call that is read is expanded under its kind. -/
theorem expandCall_of_readCall {call : Call} (h : readCall query = .ok (some call)) :
    expandCall r query = (call.expand r).map fun text => some (call.kind, text) := by
  rw [expandCall, h]
  rfl

/-- An error of expanding the call leaves the query as it is written. -/
theorem expandQuery_of_expand_error {call : Call} {e : QueryError}
    (h : readCall query = .ok (some call)) (he : call.expand r = .error e) :
    expandQuery r query = .ok { text := query, fallback := some e.message } := by
  rw [expandQuery, expandCall_of_readCall h, he, Except.map]
  exact if_pos (expand_failsWith r call e he)

/-- A call that can be expanded is. -/
theorem expandQuery_of_expand_ok {call : Call} {text : Text}
    (h : readCall query = .ok (some call)) (he : call.expand r = .ok text) :
    expandQuery r query = .ok { text, kind := some call.kind } := by
  rw [expandQuery, expandCall_of_readCall h, he, Except.map]

end

/-! ## The outcome of a compilation -/

namespace Target

/-- The two stages behind the macro call: variables, then placeholders. -/
def finish (t : Target) (registry : Registry) (request : Request) (time : TimeContext)
    (text : Text) : Text :=
  (t.symbols time).render (registry.substitute request.scope .query text)

/-- The outcome that a compiled query shows: its macro, its report of a call left as it is written,
and the text that its SQL comes from. -/
def Shows (t : Target) (registry : Registry) (request : Request) (c : Compiled) : Outcome → Prop
  | .expanded => ∃ call text, readCall t.query = .ok (some call) ∧
      call.expand (registry.substitute request.scope .plain) = .ok text ∧
      c.kind = some call.kind ∧ c.fallback = none ∧ c.sql = t.finish registry request c.time text
  | .asWritten => readCall t.query = .ok none ∧
      c.kind = none ∧ c.fallback = none ∧ c.sql = t.finish registry request c.time t.query
  | .fellBack => ∃ e, (readCall t.query = .error e ∨ ∃ call, readCall t.query = .ok (some call) ∧
        call.expand (registry.substitute request.scope .plain) = .error e) ∧
      c.kind = none ∧ c.fallback = some e.message ∧
      c.sql = t.finish registry request c.time t.query

section
variable {t t' : Target} {registry registry' : Registry} {request request' : Request}
  {c c' : Compiled}

/-- The query alone decides which outcome a compiled query shows. -/
theorem Shows.eq_ofQuery {o : Outcome} (h : t.Shows registry request c o) :
    o = .ofQuery t.query := by
  unfold Outcome.ofQuery
  cases o with
  | expanded =>
    obtain ⟨call, text, hr, he, -⟩ := h
    obtain ⟨text', he'⟩ := expand_eq_ok_of he id
    rw [hr]
    dsimp only
    rw [he']
  | asWritten => rw [h.1]
  | fellBack =>
    obtain ⟨e, hr | ⟨call, hr, he⟩, -⟩ := h
    · rw [hr]
    · rw [hr]
      dsimp only
      rw [(expand_eq_error_iff _ id).1 he]

/-- Two compiled queries of one query that show the same outcome report the same. -/
theorem Shows.report_eq {o : Outcome} (h : t.Shows registry request c o)
    (h' : t'.Shows registry' request' c' o) (hq : t'.query = t.query) :
    c'.kind = c.kind ∧ c'.fallback = c.fallback := by
  cases o with
  | expanded =>
    obtain ⟨call, text, hr, -, hk, hf, -⟩ := h
    obtain ⟨call', text', hr', -, hk', hf', -⟩ := h'
    rw [hq, hr] at hr'
    cases hr'
    exact ⟨hk'.trans hk.symm, hf'.trans hf.symm⟩
  | asWritten =>
    obtain ⟨-, hk, hf, -⟩ := h
    obtain ⟨-, hk', hf', -⟩ := h'
    exact ⟨hk'.trans hk.symm, hf'.trans hf.symm⟩
  | fellBack =>
    obtain ⟨e, he, hk, hf, -⟩ := h
    obtain ⟨e', he', hk', hf', -⟩ := h'
    rw [hq] at he'
    have he : e' = e := by
      rcases he with hr | ⟨call, hr, he⟩ <;> rcases he' with hr' | ⟨call', hr', he'⟩ <;>
        rw [hr] at hr' <;> cases hr'
      · rfl
      · rw [expand_eq_error_iff _ (registry.substitute request.scope .plain), he] at he'
        cases he'
        rfl
    subst he
    exact ⟨hk'.trans hk.symm, hf'.trans hf.symm⟩

/-- Where the time values are there, the compiled query is the expanded one after both stages. -/
theorem compile_of_expandQuery {time : TimeContext} {x : Expanded}
    (h : t.timeContext registry request = .ok time)
    (hx : expandQuery (registry.substitute request.scope .plain) t.query = .ok x) :
    t.compile registry request = .ok
      ⟨t.finish registry request time x.text, x.kind, x.fallback, time⟩ := by
  rw [compile, h, hx]
  rfl

/-- Where the time values are there, so is the compiled query, with the outcome of its query. -/
theorem compile_shows {time : TimeContext} (h : t.timeContext registry request = .ok time) :
    ∃ c, t.compile registry request = .ok c ∧ c.time = time ∧
      t.Shows registry request c (.ofQuery t.query) := by
  suffices hc : ∃ o c, t.compile registry request = .ok c ∧ c.time = time ∧
      t.Shows registry request c o by
    obtain ⟨o, c, hc, ht, hs⟩ := hc
    exact ⟨c, hc, ht, hs.eq_ofQuery ▸ hs⟩
  cases hr : readCall t.query with
  | error e =>
    exact ⟨.fellBack, _, compile_of_expandQuery h (expandQuery_of_readCall_error hr), rfl,
      e, .inl hr, rfl, rfl, rfl⟩
  | ok found =>
    cases found with
    | none =>
      exact ⟨.asWritten, _, compile_of_expandQuery h (expandQuery_of_readCall_none hr), rfl, hr,
        rfl, rfl, rfl⟩
    | some call =>
      cases he : call.expand (registry.substitute request.scope .plain) with
      | error e =>
        exact ⟨.fellBack, _, compile_of_expandQuery h (expandQuery_of_expand_error hr he), rfl,
          e, .inr ⟨call, hr, he⟩, rfl, rfl, rfl⟩
      | ok text =>
        exact ⟨.expanded, _, compile_of_expandQuery h (expandQuery_of_expand_ok hr he), rfl,
          call, text, hr, he, rfl, rfl, rfl⟩

/-- A failure of the time values is the failure of the compilation. -/
theorem compile_of_timeContext_error {f : Failure}
    (h : t.timeContext registry request = .error f) : t.compile registry request = .error f := by
  rw [compile, h]
  rfl

/-- A compilation fails exactly where the time values do. -/
theorem compile_eq_error_iff {f : Failure} :
    t.compile registry request = .error f ↔ t.timeContext registry request = .error f := by
  refine ⟨fun h => ?_, compile_of_timeContext_error⟩
  cases ht : t.timeContext registry request with
  | error g =>
    rw [compile_of_timeContext_error ht] at h
    cases h
    rfl
  | ok time =>
    obtain ⟨c, hc, -⟩ := compile_shows ht
    rw [h] at hc
    cases hc

/-- Every compiled query shows the outcome of its query. -/
theorem shows_of_compile (h : t.compile registry request = .ok c) :
    t.Shows registry request c (.ofQuery t.query) := by
  cases ht : t.timeContext registry request with
  | error g =>
    rw [compile_of_timeContext_error ht] at h
    cases h
  | ok time =>
    obtain ⟨c', hc, -, hs⟩ := compile_shows ht
    rw [h] at hc
    cases hc
    exact hs

end

/-- Without an abort of date arithmetic, a compilation fails exactly where the time values do, with
the same failure, which is an invalid date or duration. Otherwise it shows exactly one outcome, and
any other compilation of the same query shows that one too, with the same report. -/
theorem compile_outcome (t : Target) (registry : Registry) (request : Request)
    (h : t.timeContext registry request ≠ .error .abort) :
    (∀ f, t.compile registry request = .error f ↔ t.timeContext registry request = .error f) ∧
    (∀ f, t.compile registry request = .error f →
      ∃ s, f = .error (.invalidDate s) ∨ f = .error (.invalidDuration s)) ∧
    (∀ time, t.timeContext registry request = .ok time →
      ∃ c, t.compile registry request = .ok c ∧ c.time = time ∧
        (∃! o, t.Shows registry request c o) ∧
        ∀ (t' : Target) (registry' : Registry) (request' : Request) (c' : Compiled),
          t'.query = t.query → t'.compile registry' request' = .ok c' →
          (∀ o, t'.Shows registry' request' c' o ↔ t.Shows registry request c o) ∧
          c'.kind = c.kind ∧ c'.fallback = c.fallback) := by
  refine ⟨fun f => compile_eq_error_iff, fun f hf => ?_, fun time ht => ?_⟩
  · have htime := compile_eq_error_iff.1 hf
    cases f with
    | abort => exact absurd htime h
    | error e =>
      have hof : e.isRecoverable = false := TimeRange.resolve_failsWith _ _ _ _ _ _ htime
      obtain ⟨s, hs⟩ := QueryError.isRecoverable_eq_false_iff.1 hof
      exact ⟨s, hs.imp (congrArg Failure.error) (congrArg Failure.error)⟩
  · obtain ⟨c, hc, hct, hs⟩ := compile_shows ht
    refine ⟨c, hc, hct, ⟨_, hs, fun o ho => ho.eq_ofQuery⟩, ?_⟩
    intro t' registry' request' c' hq hc'
    have hs' := shows_of_compile hc'
    rw [hq] at hs'
    refine ⟨fun o => ⟨fun ho => ?_, fun ho => ?_⟩, hs.report_eq hs' hq⟩
    · rw [ho.eq_ofQuery, hq]
      exact hs
    · rw [ho.eq_ofQuery]
      exact hs'

/-- A query whose call cannot be expanded, since its argument has no alias. -/
def unaliasedRate : Target where
  query := "$rate(count()) FROM hits".toList

end Target

/-- A request for the first minute of the epoch, a minute after it. -/
def Request.firstMinute : Request where
  now := { seconds := 60, nanos := 0 }
  range := ⟨.instant { seconds := 0, nanos := 0 }, .expression "now".toList, true⟩
  interval := "30s".toList

namespace Target

/-- A rate without an alias is compiled and shows exactly one outcome. -/
theorem compile_outcome_unaliasedRate :
    unaliasedRate.timeContext .empty .firstMinute ≠ .error .abort ∧
    ∃ c, unaliasedRate.compile .empty .firstMinute = .ok c ∧
      ∃! o, unaliasedRate.Shows .empty .firstMinute c o := by
  have ht : unaliasedRate.timeContext .empty .firstMinute = .ok ⟨0, 60, 30, true⟩ := by
    decide +kernel
  have h : unaliasedRate.timeContext .empty .firstMinute ≠ .error .abort := by
    rw [ht]
    rintro ⟨⟩
  obtain ⟨-, -, hok⟩ := compile_outcome unaliasedRate .empty .firstMinute h
  obtain ⟨c, hc, -, ho, -⟩ := hok _ ht
  exact ⟨h, c, hc, ho⟩

end Target

end SeriesQuery
