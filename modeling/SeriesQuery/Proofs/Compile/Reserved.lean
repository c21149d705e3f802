import SeriesQuery.Proofs.Compile.Verbatim

/-!
# Reserved names and variables

A placeholder that no word character follows is read by both stages behind the macro call: to
substitution it is a reference to its name, to rendering the placeholder itself. Where no variable
has its name, substitution leaves it to rendering, and it stands for its value wherever it occurs.
Nothing keeps a variable from taking a reserved name, though. Substitution comes first, and what the
variable stands for is then rendered in the place of the placeholder (`Target.compile_placeholder`).
-/

namespace SeriesQuery

open Text

namespace Target

variable {t : Target} {registry : Registry} {request : Request}

/-- In a query that starts with no macro, what a variable of its name stands for takes the place of
each placeholder that no word character follows, and rendering goes over it like over any other
text. If neither the request nor the registry has such a variable, the placeholder is written as its
value, between what comes of the text on its two sides. -/
theorem compile_placeholder {time : TimeContext} {p : Placeholder} {before after : Text}
    (hread : Macro.readCall t.query = .ok none)
    (htime : t.timeContext registry request = .ok time)
    (hquery : t.query = before ++ (p.spelling ++ after))
    (hafter : ∀ c ∈ after.head?, ¬ isWordChar c) :
    ∃ c, t.compile registry request = .ok c ∧ c.time = time ∧
      c.sql = (t.symbols time).render (registry.substitute request.scope .query before
        ++ (registry.textOf request.scope .query ⟨.bare, p.name⟩
          ++ registry.substitute request.scope .query after)) ∧
      (registry.value? request.scope p.name = none →
        c.sql = t.finish registry request time before
          ++ ((t.symbols time).value p ++ t.finish registry request time after)) := by
  refine ⟨_, compile_of_expandQuery htime (expandQuery_of_readCall_none hread), rfl, ?_, ?_⟩
  · dsimp only
    rw [hquery, finish, p.substitute_append after registry request.scope .query before hafter]
  · intro hunknown
    dsimp only
    rw [hquery, t.finish_append_reserved time hunknown hafter]

/-- A target that counts the rows of its table. -/
def countRows : Target where
  query := "SELECT count() FROM $table, $$to".toList
  table := "requests".toList

/-- A dollar sign in front of a placeholder stays, and the table and the upper bound are filled
in. -/
theorem compile_placeholder_countRows :
    ∃ c, countRows.compile .empty .firstMinute = .ok c ∧
      c.sql = "SELECT count() FROM default.requests, $60".toList := by
  have hread : Macro.readCall countRows.query = .ok none := by decide
  have htime : countRows.timeContext .empty .firstMinute = .ok ⟨0, 60, 30, true⟩ := by
    decide +kernel
  have hquery : countRows.query =
      "SELECT count() FROM ".toList ++ (Placeholder.table.spelling ++ ", $$to".toList) := by decide
  have hafter : ∀ c ∈ ", $$to".toList.head?, ¬ isWordChar c := by
    rintro _ ⟨⟩
    decide
  obtain ⟨c, hc, -, -, hvalue⟩ := compile_placeholder hread htime hquery hafter
  exact ⟨c, hc, (hvalue rfl).trans (by decide +kernel)⟩

end Target

/-- A registry with a variable of a reserved name. -/
def Registry.ofTable : Registry :=
  .ofVariables [{ name := "table".toList, current := .single "other".toList }]

/-- A variable of a reserved name takes the place of the placeholder. -/
theorem Target.compile_placeholder_shadowed :
    Macro.readCall countRows.query = .ok none ∧
    ∃ c, countRows.compile .ofTable .firstMinute = .ok c ∧
      c.sql = "SELECT count() FROM other, $60".toList ∧
      ¬ (countRows.symbols c.time).value .table <:+: c.sql := by
  have hread : Macro.readCall countRows.query = .ok none := by decide
  have htime : countRows.timeContext .ofTable .firstMinute = .ok ⟨0, 60, 30, true⟩ := by
    decide +kernel
  have hc := compile_of_expandQuery htime (expandQuery_of_readCall_none hread)
  exact ⟨hread, _, hc, by decide +kernel, by decide +kernel⟩

end SeriesQuery
