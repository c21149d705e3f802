import SeriesQuery.Proofs.Compile.Outcome
import SeriesQuery.Proofs.Placeholder
import SeriesQuery.Proofs.Text.Numeral

/-!
# SQL on one line

Every compilation ends with a rendering, and a rendering has no line break of its own: those of the
template are tokens, written as spaces, so only a value can bring one in (`isLine_renderWith`). The
values are numbers, the names that the target gives, and two templates rendered with these. So SQL
for names without line breaks is a single line (`Target.isLine_of_compile`), whatever stages the
line breaks of the query, the variables and the name of an event come through.
-/

namespace SeriesQuery

open Text

/-! ## Texts without line breaks -/

/-- The text holds no line break. -/
def Text.IsLine (s : Text) : Prop := '\r' ∉ s ∧ '\n' ∉ s

instance (s : Text) : Decidable (IsLine s) := inferInstanceAs (Decidable (_ ∧ _))

namespace Text

variable {c : Char} {s t : Text}

@[simp]
theorem isLine_nil : IsLine [] := ⟨List.not_mem_nil, List.not_mem_nil⟩

/-- Two texts in a row are on one line if both are. -/
@[simp]
theorem isLine_append : IsLine (s ++ t) ↔ IsLine s ∧ IsLine t := by
  simp only [IsLine, List.mem_append, not_or]
  exact and_and_and_comm

/-- A text on one line has no line break in front and goes on on that line. -/
@[simp]
theorem isLine_cons : IsLine (c :: s) ↔ (c ≠ '\r' ∧ c ≠ '\n') ∧ IsLine s := by
  simp only [IsLine, List.mem_cons, not_or, ne_comm (a := c)]
  exact and_and_and_comm

/-- No line break stands among word characters. -/
theorem isLine_of_isWordChar (h : ∀ c ∈ s, isWordChar c) : IsLine s := by
  constructor
  · intro hmem
    exact absurd (h _ hmem) (by decide)
  · intro hmem
    exact absurd (h _ hmem) (by decide)

/-- A number is written on one line. -/
theorem isLine_decimal (n : Int) : IsLine (decimal n) := by
  have hdigits (m : Nat) : IsLine (decimal m) :=
    isLine_of_isWordChar fun c hc => isWordChar_of_isDigit ((isDigits_decimal m).isDigit c hc)
  cases n with
  | ofNat m => exact hdigits m
  | negSucc m => exact isLine_cons.2 ⟨by decide, hdigits (m + 1)⟩

end Text

/-! ## Rendering -/

/-- The line breaks of a template are among its tokens. -/
theorem ne_lineBreak_of_plain_mem {template : Text} {c : Char}
    (h : .plain c ∈ templateToken.segments template) : c ≠ '\r' ∧ c ≠ '\n' := by
  have hcuts := TokenRule.cuts_segments TemplateToken.templateToken_keepsApart template
  obtain ⟨before, after, he⟩ := List.append_of_mem h
  rw [List.append_cons] at he
  constructor
  · rintro rfl
    exact hcuts.noneLeft before (.lineBreak .cr) [] after nofun he
  · rintro rfl
    exact hcuts.noneLeft before (.lineBreak .lf) [] after nofun he

/-- Segments are filled on one line if neither a plain character nor a value breaks it. -/
theorem Segment.isLine_fill {τ : Type} {value : τ → Text} {segments : List (Segment τ)}
    (hplain : ∀ c, .plain c ∈ segments → c ≠ '\r' ∧ c ≠ '\n')
    (hvalue : ∀ t, .token t ∈ segments → IsLine (value t)) : IsLine (fill value segments) := by
  induction segments with
  | nil => exact isLine_nil
  | cons segment segments ih =>
    have htail := ih (fun c hc => hplain c (List.mem_cons_of_mem _ hc))
      fun t ht => hvalue t (List.mem_cons_of_mem _ ht)
    cases segment with
    | plain c => exact isLine_cons.2 ⟨hplain c (List.mem_cons_self ..), htail⟩
    | token t => exact isLine_append.2 ⟨hvalue t (List.mem_cons_self ..), htail⟩

/-- A template is rendered on one line if the values of its placeholders stand on one. -/
theorem isLine_renderWith {value : Placeholder → Text} {template : Text}
    (h : ∀ p, .token (.placeholder p) ∈ templateToken.segments template → IsLine (value p)) :
    IsLine (renderWith value template) := by
  refine Segment.isLine_fill (fun c hc => ne_lineBreak_of_plain_mem hc) fun t ht => ?_
  cases t with
  | placeholder p => exact h p ht
  | lineBreak b => exact (by decide : IsLine [' '])

/-- A placeholder is written on one line. -/
theorem Placeholder.isLine_spelling (p : Placeholder) : IsLine p.spelling := by
  cases p <;> decide

namespace Symbols

variable {s : Symbols}

/-- The three names that values are built from hold no line break. -/
structure NamesOnLine (s : Symbols) : Prop where
  table : IsLine s.table
  dateColumn : IsLine s.dateColumn
  dateTimeColumn : IsLine s.dateTimeColumn

/-- The values of the base placeholders are on one line if the names in them are. -/
theorem NamesOnLine.isLine_baseValue (h : s.NamesOnLine) (p : Placeholder) :
    IsLine (s.baseValue p) := by
  cases p with
  | table => exact h.table
  | dateColumn => exact h.dateColumn
  | dateTimeColumn => exact h.dateTimeColumn
  | lower | upper | interval => exact isLine_decimal _
  | timeSeries => exact Placeholder.timeSeries.isLine_spelling
  | timeFilter => exact Placeholder.timeFilter.isLine_spelling

/-- The values of all placeholders stand on one line each, those of the two templates too. -/
theorem NamesOnLine.isLine_value (h : s.NamesOnLine) (p : Placeholder) : IsLine (s.value p) := by
  cases p with
  | timeSeries | timeFilter => exact isLine_renderWith fun p _ => h.isLine_baseValue p
  | table => exact h.table
  | dateColumn => exact h.dateColumn
  | dateTimeColumn => exact h.dateTimeColumn
  | lower | upper | interval => exact isLine_decimal _

/-- Rendering leaves no line break if the names have none. -/
theorem NamesOnLine.isLine_render (h : s.NamesOnLine) (template : Text) :
    IsLine (s.render template) :=
  isLine_renderWith fun p _ => h.isLine_value p

end Symbols

/-! ## Compilation -/

namespace Target

variable {t : Target} {registry : Registry} {request : Request} {c : Compiled}

/-- Whatever becomes of the macro call, the SQL is a text after both stages. -/
theorem exists_sql_eq_finish (h : t.compile registry request = .ok c) :
    ∃ text, c.sql = t.finish registry request c.time text := by
  have hshows := shows_of_compile h
  cases houtcome : Outcome.ofQuery t.query with
  | expanded =>
    rw [houtcome] at hshows
    obtain ⟨_, text, -, -, -, -, hsql⟩ := hshows
    exact ⟨text, hsql⟩
  | asWritten =>
    rw [houtcome] at hshows
    exact ⟨t.query, hshows.2.2.2⟩
  | fellBack =>
    rw [houtcome] at hshows
    obtain ⟨_, -, -, -, hsql⟩ := hshows
    exact ⟨t.query, hsql⟩

/-- The SQL for a target whose names hold no line break is a single line: no line break of the
query, of a variable or of the request is left in it, nor does any stage put one in. -/
theorem isLine_of_compile (hdatabase : IsLine t.database) (htable : IsLine t.table)
    (hdate : IsLine t.dateColumn) (hdateTime : IsLine t.dateTimeColumn)
    (h : t.compile registry request = .ok c) : IsLine c.sql := by
  obtain ⟨text, hsql⟩ := exists_sql_eq_finish h
  have hnames : (t.symbols c.time).NamesOnLine := by
    refine ⟨?_, hdate, hdateTime⟩
    show IsLine (t.database ++ ['.'] ++ t.table)
    exact isLine_append.2 ⟨isLine_append.2 ⟨hdatabase, by decide⟩, htable⟩
  rw [hsql]
  exact hnames.isLine_render _

/-- A target for the events that a variable names, its query on three lines. -/
def brokenEvent : Target where
  query := "$event($name,\r\n  max(__size)\n)\r".toList

end Target

/-- A registry with a name for events on three lines. -/
def Registry.brokenName : Registry :=
  .ofVariables [{ name := "name".toList, current := .single "log\n\rin".toList }]

namespace Target

/-- A name on three lines, in a query on three lines, is compiled into one line. -/
theorem isLine_of_compile_brokenEvent :
    ∃ c, brokenEvent.compile .brokenName .firstMinute = .ok c ∧ c.kind = some .event ∧
      IsLine c.sql := by
  have htime : brokenEvent.timeContext .brokenName .firstMinute = .ok ⟨0, 60, 30, true⟩ := by
    decide +kernel
  have hread : Macro.readCall brokenEvent.query =
      .ok (some (.event "$name".toList (some "max(__size)".toList))) := by decide +kernel
  have hc := compile_of_expandQuery htime (expandQuery_of_expand_ok hread rfl)
  exact ⟨_, hc, rfl, isLine_of_compile (by decide) (by decide) (by decide) (by decide) hc⟩

end Target

end SeriesQuery
