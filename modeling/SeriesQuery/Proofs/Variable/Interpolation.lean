import Mathlib.Data.List.Forall2
import SeriesQuery.Proofs.Macro.Arguments
import SeriesQuery.Variable.Substitution

/-!
# Values read back as arguments

The values of a variable that can take several are written with commas between them, as numbers or
as literals (`Variable.interpolate`), and the reader of arguments knows nothing of how they were
written. Still it finds them again, one argument for each value (`interpolate_reads_back`): a
literal is one piece, whatever text it stands for (`isPiece_quote`), and so is a number
(`isPiece_of_isNumeral`).
-/

namespace SeriesQuery

open Text Macro

/-! ## Pieces that stand for values -/

/-- A comma in a literal is none at the outermost level. -/
theorem noTopComma_quote (s : Text) : NoTopComma (quote s) := by
  intro before after h hscan
  cases before with
  | nil => exact absurd (List.cons.inj h).1 (by decide)
  | cons c before =>
    obtain ⟨rfl, hin⟩ := List.cons.inj h
    -- The comma is not the closing quote, so it stands in the escaped text.
    rcases List.eq_nil_or_concat after with rfl | ⟨init, last, rfl⟩
    · exact absurd (List.append_inj' hin rfl).2 (by decide)
    · rw [List.concat_eq_append, List.append_eq, ← List.cons_append, ← List.append_assoc] at hin
      exact Nesting.mode_ne_outside_of_escape rfl (List.append_inj' hin rfl).1 hscan rfl

/-- A literal has no blanks at its ends. -/
theorem trim_quote (s : Text) : trim (quote s) = quote s := by
  refine trim_eq_self ?_ ?_
  · rintro _ ⟨⟩
    decide
  · rw [quote, ← List.cons_append, List.getLast?_concat]
    rintro _ ⟨⟩
    decide

/-- A literal can stand between the commas of an argument list. -/
theorem isPiece_quote (s : Text) : IsPiece (quote s) where
  closed := Nesting.scan_quote rfl s
  notBlank h := by
    rw [← trim_eq_nil_iff, trim_quote] at h
    cases h
  noTopComma := noTopComma_quote s

/-- A digit is an inert character, no comma and no blank. -/
theorem isInert_of_isDigit {c : Char} (h : c.isDigit) : IsInert c ∧ c ≠ ',' ∧ ¬ isBlank c := by
  have hword : isWordChar c := isWordChar_of_isAlphanum (by simp [Char.isAlphanum, h])
  have hrange : 48 ≤ c.toNat ∧ c.toNat ≤ 57 := Char.isDigit_iff_toNat.1 h
  refine ⟨isInert_of_isWordChar hword, ?_, ?_⟩
  · rintro rfl
    exact absurd h (by decide)
  · simp only [isBlank, inRanges, List.any_cons, List.any_nil, Bool.or_false, Bool.or_eq_true,
      Bool.and_eq_true, decide_eq_true_eq]
    omega

namespace Variable

/-- A numeral is made of ASCII digits, at least one. -/
theorem isNumeral_iff {s : Text} : isNumeral s ↔ s ≠ [] ∧ ∀ c ∈ s, c.isDigit := by
  simp [isNumeral]

/-- A number has no blanks at its ends. -/
theorem trim_of_isNumeral {s : Text} (h : isNumeral s) : trim s = s := by
  have hdigit := (isNumeral_iff.1 h).2
  exact trim_eq_self
    (fun c hc => (isInert_of_isDigit (hdigit c (List.mem_of_mem_head? hc))).2.2)
    (fun c hc => (isInert_of_isDigit (hdigit c (List.mem_of_mem_getLast? hc))).2.2)

/-- A numeral can stand between the commas of an argument list. -/
theorem isPiece_of_isNumeral {s : Text} (h : isNumeral s) : IsPiece s := by
  obtain ⟨hne, hdigit⟩ := isNumeral_iff.1 h
  refine ⟨?_, fun hblank => ?_, fun before after he _ => ?_⟩
  · exact Nesting.scan_of_inert rfl fun c hc => (isInert_of_isDigit (hdigit c hc)).1
  · rw [← trim_eq_nil_iff, trim_of_isNumeral h] at hblank
    exact hne hblank
  · have hcomma : ',' ∈ s := he ▸ List.mem_append_right _ (List.mem_cons_self ..)
    exact (isInert_of_isDigit (hdigit _ hcomma)).2.1 rfl

/-! ## Lists of values -/

/-- What an argument says of a value: it is the value when every option is a number, and otherwise
a literal that reads back as the value. -/
structure GivesBack (v : Variable) (argument value : Text) : Prop where
  bare : (∀ o ∈ v.optionValues, isNumeral o) → argument = value
  literal : (∃ o ∈ v.optionValues, ¬ isNumeral o) →
    ∃ inside, argument = '\'' :: (inside ++ ['\'']) ∧ unescape? inside = some value

/-- A value is given back by what is written for it. -/
theorem givesBack_escapeText (v : Variable) (text : Text) :
    v.GivesBack (v.escapeText text) text where
  bare h := if_pos (isNumeric_iff.2 h)
  literal h := by
    obtain ⟨o, ho, hnum⟩ := h
    exact ⟨escape text, if_neg fun hall => hnum (isNumeric_iff.1 hall o ho), unescape?_escape text⟩

/-- One value in query text is one trimmed piece: a literal always, a number if it is an option. -/
theorem isPiece_escapeText {v : Variable} {text : Text}
    (h : v.isNumeric → text ∈ v.optionValues) :
    IsPiece (v.escapeText text) ∧ trim (v.escapeText text) = v.escapeText text := by
  unfold escapeText
  split
  · next hnum =>
    have hn := isNumeric_iff.1 hnum text (h hnum)
    exact ⟨isPiece_of_isNumeral hn, trim_of_isNumeral hn⟩
  · exact ⟨isPiece_quote text, trim_quote text⟩

/-- Trimmed pieces with commas between them are read as they are. -/
theorem readArguments_join {parts : List Text} (h : ∀ p ∈ parts, IsPiece p ∧ trim p = p) :
    readArguments (join [','] parts) = .ok parts := by
  by_cases hne : parts = []
  · subst hne
    rfl
  · have hsplits : Splits (join [','] parts) parts := ⟨hne, fun p hp => (h p hp).1, rfl⟩
    have htrim : parts.map trim = parts :=
      (List.map_congr_left fun p hp => (h p hp).2).trans (List.map_id parts)
    rw [hsplits.readArguments_eq, htrim]

/-- A list of values reads back, if no number is among them that is no option. -/
theorem readArguments_interpolate {v : Variable} (hv : v.multi || v.includeAll)
    {values : List Text} (h : v.isNumeric → ∀ x ∈ values, x ∈ v.optionValues) :
    readArguments (v.interpolate (.multi values)) = .ok (values.map v.escapeText) := by
  rw [interpolate_multi hv]
  refine readArguments_join fun p hp => ?_
  obtain ⟨x, hx, rfl⟩ := List.mem_map.1 hp
  exact isPiece_escapeText fun hnum => h hnum x hx

/-- Values are given back by what is written for them. -/
theorem forall₂_givesBack (v : Variable) (values : List Text) :
    List.Forall₂ v.GivesBack (values.map v.escapeText) values := by
  rw [List.forall₂_map_left_iff, List.forall₂_same]
  exact fun x _ => v.givesBack_escapeText x

end Variable

/-- A reference to a registered variable whose value is the option for all stands for the list of
its other options. -/
theorem Registry.textOf_of_isAll {registry : Registry} {scope : Scope} {r : Reference}
    {v : Variable} {value : Value} (hget : registry.get? r.name = some v)
    (hvalue : registry.value? scope r.name = some value) (hall : value.isAll)
    (hne : v.options ≠ []) :
    registry.textOf scope .query r = v.interpolate (.multi v.optionValues) := by
  have hexpand : v.expandAll value = .multi v.optionValues := by
    rw [Variable.expandAll, hall, decide_eq_true hne]
    rfl
  rw [textOf_of_get? .query hget hvalue, hexpand, Format.query]

/-- The values of a variable that can take several read back as arguments, one for each value in
order: as the values themselves when every option is a number, and as literals of them otherwise.
The one condition is that a variable with numbers only has no other value. So a reference to a
variable that stands for all of its options gives back each option that is declared, in order. -/
theorem interpolate_reads_back (v : Variable) (hv : v.multi || v.includeAll) :
    (∀ values : List Text,
      (∃ o ∈ v.optionValues, ¬ Variable.isNumeral o) ∨ (∀ x ∈ values, x ∈ v.optionValues) →
      ∃ args, readArguments (v.interpolate (.multi values)) = .ok args ∧
        List.Forall₂ v.GivesBack args values) ∧
    ∀ (registry : Registry) (scope : Scope) (text : Text) (before after : List (Segment Reference))
      (r : Reference) (value : Value),
      reference.segments text = before ++ .token r :: after →
      registry.get? r.name = some v → registry.value? scope r.name = some value →
      value.isAll → v.options ≠ [] →
      ∃ out args, registry.substitute scope .query text =
          Segment.fill (registry.textOf scope .query) before ++ out ++
            Segment.fill (registry.textOf scope .query) after ∧
        readArguments out = .ok args ∧ List.Forall₂ v.GivesBack args v.optionValues := by
  refine ⟨fun values h => ?_, fun registry scope text before after r value hseg hget hvalue hall hne
    => ?_⟩
  · refine ⟨_, Variable.readArguments_interpolate hv fun hnum => ?_, v.forall₂_givesBack values⟩
    rcases h with ⟨o, ho, hno⟩ | h
    · exact absurd (Variable.isNumeric_iff.1 hnum o ho) hno
    · exact h
  · refine ⟨registry.textOf scope .query r, _, ?_, ?_, v.forall₂_givesBack v.optionValues⟩
    · rw [Registry.substitute, TokenRule.substitute, hseg, Segment.fill_append,
        Segment.fill_cons_token, List.append_assoc]
    · rw [Registry.textOf_of_isAll hget hvalue hall hne]
      exact Variable.readArguments_interpolate hv fun _ x hx => hx

/-- A variable that stands for all of its options, one of which has to be escaped. -/
def Variable.users : Variable where
  name := "user".toList
  multi := true
  options := [allOptions, "o'b,(".toList, "1".toList]
  current := .single allOptions

/-- Values with a quote, a backslash and a comma are read back, and so are all options. -/
theorem interpolate_reads_back_users :
    (Variable.users.multi || Variable.users.includeAll) ∧
    (∃ o ∈ Variable.users.optionValues, ¬ Variable.isNumeral o) ∧
    (∃ args, readArguments (Variable.users.interpolate (.multi ["\\',".toList])) = .ok args ∧
      List.Forall₂ Variable.users.GivesBack args ["\\',".toList]) ∧
    ∃ out args, (Registry.ofVariables [Variable.users]).substitute .empty .query
        "([[user]])".toList = "(".toList ++ out ++ ")".toList ∧
      readArguments out = .ok args ∧
      List.Forall₂ Variable.users.GivesBack args ["o'b,(".toList, "1".toList] := by
  have hv : Variable.users.multi || Variable.users.includeAll := rfl
  have ho : ∃ o ∈ Variable.users.optionValues, ¬ Variable.isNumeral o :=
    ⟨"o'b,(".toList, by decide, by decide⟩
  obtain ⟨hlist, hall⟩ := interpolate_reads_back Variable.users hv
  exact ⟨hv, ho, hlist _ (.inl ho), hall (.ofVariables [Variable.users]) .empty _ [.plain '(']
    [.plain ')'] ⟨.bracketed, "user".toList⟩ (.single allOptions) rfl rfl rfl rfl nofun⟩

end SeriesQuery
