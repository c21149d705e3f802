import SeriesQuery.Macro.Expansion
import SeriesQuery.Proofs.Condition
import SeriesQuery.Proofs.Text.Keyword

/-!
# The time filter in front of a condition

A source without a WHERE of its own gets one with the time filter (`withTimeFilter_of_source`).
Where a condition stands behind the first WHERE, the filter and AND go in front of that condition as
it is written (`withTimeFilter_of_condition`), without a parenthesis around it. The filter then
bounds the first disjunct, and the whole condition only if it bounds the later ones anyway
(`withTimeFilter_condition`).
-/

namespace SeriesQuery.Macro

open Text

variable {source : Text}

/-- No WHERE stands in front of a source without one. -/
theorem split?_from (hsource : ¬ Keyword.whereClause.OccursIn source) :
    Keyword.whereClause.split? ("FROM ".toList ++ source) = none := by
  have hfrom : "FROM ".toList ++ source = "FROM".toList ++ ' ' :: source := rfl
  rw [hfrom, Keyword.split?, Keyword.splitFrom?_append_cons (by decide) _ (by decide),
    show Keyword.whereClause.splitFrom? false source = none from
      Keyword.split?_eq_none_iff.2 hsource]
  rfl

/-- A source without a condition gets the time filter for one. -/
theorem withTimeFilter_of_source (hsource : ¬ Keyword.whereClause.OccursIn source)
    (hlast : ∀ c ∈ ("FROM ".toList ++ source).getLast?, ¬ isBlank c) :
    withTimeFilter ("FROM ".toList ++ source) =
      "FROM ".toList ++ source ++ " WHERE $timeFilter".toList := by
  unfold withTimeFilter
  dsimp only
  rw [trimEnd_eq_self hlast, split?_from hsource]

/-- In front of a condition, the time filter and AND are written as they are. -/
theorem withTimeFilter_of_condition {condition : Text}
    (hsource : ¬ Keyword.whereClause.OccursIn source) (hends : HasBareEnds condition)
    (hne : condition ≠ []) :
    withTimeFilter ("FROM ".toList ++ source ++ " WHERE ".toList ++ condition) =
      "FROM ".toList ++ source ++ " WHERE $timeFilter AND ".toList ++ condition := by
  have hlast : ∀ c ∈ ("FROM ".toList ++ source ++ " WHERE ".toList ++ condition).getLast?,
      ¬ isBlank c := by
    rw [List.getLast?_append_of_ne_nil _ hne]
    exact hends.last
  have hwhere : "FROM ".toList ++ source ++ " WHERE ".toList ++ condition =
      "FROM ".toList ++ source ++ ' ' :: ("WHERE".toList ++ ' ' :: condition) := by
    rw [List.append_assoc _ " WHERE ".toList]
    rfl
  have hafter : ∀ c ∈ (' ' :: condition).head?, ¬ isWordChar c := by
    rintro _ ⟨⟩
    decide
  have htrim : trimStart (' ' :: condition) = condition :=
    (trimStart_append (b := [' ']) (by decide) condition).trans (trimStart_eq_self hends.head)
  unfold withTimeFilter
  dsimp only
  rw [trimEnd_eq_self hlast, hwhere,
    Keyword.split?_append (by decide) (split?_from hsource) (by decide) hafter]
  dsimp only
  rw [htrim]
  simp

/-- The name that the time filter has in a condition. -/
def filterAtom : Text := "$timeFilter".toList

/-- In a source with a condition, the time filter and AND stand in front of the tokens of that
condition. These tokens have one reading: the filter with the first disjunct, or a later disjunct.
So the new condition is the time filter together with the old one exactly if no later disjunct is
true where the filter is not. -/
theorem withTimeFilter_condition (c : Condition .disjunction) {condition : Text}
    (hsource : ¬ Keyword.whereClause.OccursIn source) (hspells : Spells c.tokens condition) :
    ∃ condition', withTimeFilter ("FROM ".toList ++ source ++ " WHERE ".toList ++ condition) =
        "FROM ".toList ++ source ++ " WHERE ".toList ++ condition' ∧
      Spells (.atom filterAtom :: .and :: c.tokens) condition' ∧
      (∃ d : Condition .disjunction, d.tokens = .atom filterAtom :: .and :: c.tokens) ∧
      ∀ d : Condition .disjunction, d.tokens = .atom filterAtom :: .and :: c.tokens →
        (∀ v, d.eval v = (v filterAtom && c.first.eval v || c.later?.any (Condition.eval v))) ∧
        ((∀ v, d.eval v = (v filterAtom && c.eval v)) ↔
          ∀ rest ∈ c.later?, ∀ v, rest.eval v → v filterAtom) := by
  obtain ⟨hends, hne⟩ := hspells.hasBareEnds
  have hfilter : ConditionToken.Writes (.atom filterAtom) filterAtom :=
    .atom (by decide) (hasBareEnds_iff.2 (by decide))
  have hand : ConditionToken.Writes .and "AND".toList := .and (by decide)
  have htext : " WHERE $timeFilter AND ".toList ++ condition =
      " WHERE ".toList ++ (filterAtom ++ ' ' :: ("AND".toList ++ ' ' :: condition)) := rfl
  refine ⟨filterAtom ++ ' ' :: ("AND".toList ++ ' ' :: condition), ?_,
    (Spells.single hfilter).space ((Spells.single hand).space hspells),
    ⟨_, c.tokens_prepend filterAtom⟩, fun d hd => ?_⟩
  · rw [withTimeFilter_of_condition hsource hends hne, List.append_assoc _ _ condition, htext,
      ← List.append_assoc]
  · obtain rfl := Condition.tokens_inj (hd.trans (c.tokens_prepend filterAtom).symm)
    exact ⟨fun v => c.eval_prepend filterAtom v, c.eval_prepend_eq_iff filterAtom⟩

section
open Condition

/-- The condition `a = 1 AND (b OR NOT c)`. -/
def parenthesized : Condition .disjunction :=
  term (and (atom "a = 1".toList) (factor (parenthesis
    (or (factor (atom "b".toList)) (term (factor (not (atom "c".toList))))))))

/-- The condition `a = 1 OR b = 2`. -/
def alternative : Condition .disjunction :=
  or (factor (atom "a = 1".toList)) (term (factor (atom "b = 2".toList)))

end

/-- A disjunction in parentheses keeps its reading behind the filter. -/
theorem withTimeFilter_condition_parenthesized :
    ∃ condition, withTimeFilter "FROM t WHERE a = 1 AND (b OR NOT c)".toList =
        "FROM t WHERE ".toList ++ condition ∧
      ∃ d : Condition .disjunction, Spells d.tokens condition ∧
        ∀ v, d.eval v = (v filterAtom && parenthesized.eval v) := by
  have hspells : Spells parenthesized.tokens parenthesized.text :=
    parenthesized.spells_text (by decide)
  have hsource : ¬ Keyword.whereClause.OccursIn "t".toList :=
    Keyword.split?_eq_none_iff.1 (by decide)
  obtain ⟨condition, hfilter, hspells', ⟨d, hd⟩, hreading⟩ :=
    withTimeFilter_condition parenthesized hsource hspells
  refine ⟨condition, hfilter, d, hd ▸ hspells', (hreading d hd).2.2 ?_⟩
  rintro _ ⟨⟩

/-- With an OR at the top of a condition, rows outside the time filter can satisfy the new one. -/
theorem withTimeFilter_alternative :
    ∃ (d : Condition .disjunction) (v : Text → Bool),
      Spells alternative.tokens "a = 1 OR b = 2".toList ∧
      withTimeFilter "FROM t WHERE a = 1 OR b = 2".toList =
        "FROM t WHERE $timeFilter AND a = 1 OR b = 2".toList ∧
      Spells d.tokens "$timeFilter AND a = 1 OR b = 2".toList ∧
      d.tokens = .atom filterAtom :: .and :: alternative.tokens ∧
      d.eval v = true ∧ v filterAtom = false := by
  have hspells : Spells alternative.tokens alternative.text := alternative.spells_text (by decide)
  have hspells' := (alternative.prepend filterAtom).spells_text (by decide)
  exact ⟨alternative.prepend filterAtom, fun s => s = "b = 2".toList, hspells, by decide +kernel,
    hspells', rfl, by decide, by decide⟩

end SeriesQuery.Macro
