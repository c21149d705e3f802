import SeriesQuery.Proofs.Compile.Verbatim

/-!
# Derived placeholders are definitions

Two placeholders have values that are built from those of the other six. Their values are rendered
once, when the table of values is made; a template could as well spell their definitions out.
`expandDerived` writes the definitions into a template, in one pass, and what comes of it renders to
the same text (`Symbols.render_expandDerived`), whatever the values look like.

No token reaches over the ends of a definition: it starts with a character that only begins tokens
or is part of none (`seam_definition`), and behind its last placeholder stands text of its own
(`render_definition_append`). So the text in front of a definition, the definition and the text
behind it are rendered each on its own.
-/

namespace SeriesQuery

open Text

namespace TemplateToken

/-- What a token is defined as, for the two derived placeholders. -/
def definition? (upperIsNow : Bool) : TemplateToken → Option Text
  | .placeholder .timeSeries => some timeSeriesTemplate
  | .placeholder .timeFilter => some (timeFilterTemplate upperIsNow)
  | _ => none

/-- The definition of a token, or the token itself where it has none. -/
def expansion (upperIsNow : Bool) (t : TemplateToken) : Text :=
  (t.definition? upperIsNow).getD t.spell

end TemplateToken

/-- The template with the definitions of the derived placeholders in their places. -/
def expandDerived (upperIsNow : Bool) (template : Text) : Text :=
  templateToken.substitute (TemplateToken.expansion upperIsNow) template

/-- The text in front of a seam is cut as it is inside the whole. -/
theorem TokenRule.Seam.segments_print {τ : Type} {rule : TokenRule τ} {Stands : τ → Text → Prop}
    (hrule : rule.KeepsApart Stands) {text : Text} {before after : List (Segment τ)}
    (hs : rule.Seam Stands (rule.print after)) (h : rule.segments text = before ++ after) :
    rule.segments (rule.print before) = before := by
  have hafter : rule.segments (rule.print after) = after := segments_print_of_append h
  have htext : text = rule.print before ++ rule.print after := by
    rw [← rule.print_segments text, h, print, Segment.fill_append]
    rfl
  rw [htext, hs.segments_append hrule, hafter] at h
  exact List.append_cancel_right h

namespace TemplateToken

variable {upperIsNow : Bool} {t : TemplateToken} {definition : Text}

/-- A definition is that of one of the two placeholders. -/
theorem definition?_cases (h : t.definition? upperIsNow = some definition) :
    (t = .placeholder .timeSeries ∧ definition = timeSeriesTemplate) ∨
      (t = .placeholder .timeFilter ∧ definition = timeFilterTemplate upperIsNow) := by
  cases t with
  | placeholder p =>
    cases p with
    | timeSeries => exact .inl ⟨rfl, (Option.some.inj h).symm⟩
    | timeFilter => exact .inr ⟨rfl, (Option.some.inj h).symm⟩
    | _ => cases h
  | lineBreak b => cases h

/-- From its last closing parenthesis on, a definition is text that is copied. -/
theorem exists_definition_eq (h : t.definition? upperIsNow = some definition) :
    ∃ front last, definition = front ++ last ∧ IsVerbatim last ∧ last.head? = some ')' := by
  rcases definition?_cases h with ⟨-, rfl⟩ | ⟨-, rfl⟩
  · exact ⟨"(intDiv(toUInt32($dateTimeCol), $interval) * $interval".toList, ") * 1000".toList,
      by cbv, .of_allQuiet (by decide), rfl⟩
  · cases upperIsNow with
    | false =>
      exact ⟨("$timeCol BETWEEN toDate($from) AND toDate($to) ".toList
        ++ "AND $dateTimeCol BETWEEN toDateTime($from) AND toDateTime($to".toList), [')'],
        by cbv, .of_allQuiet (by decide), rfl⟩
    | true =>
      exact ⟨"$timeCol >= toDate($from) AND $dateTimeCol >= toDateTime($from".toList, [')'],
        by cbv, .of_allQuiet (by decide), rfl⟩

/-- No token reaches into a definition from the left. -/
theorem seam_definition (h : t.definition? upperIsNow = some definition) (s : Text) :
    templateToken.Seam Stands (definition ++ s) := by
  refine templateToken_seam ?_
  rcases definition?_cases h with ⟨-, rfl⟩ | ⟨-, rfl⟩
  · rintro _ ⟨⟩
    decide
  · cases upperIsNow
    all_goals
      rintro _ ⟨⟩
      decide

/-- The tokens of a definition have no definitions. -/
theorem definition?_of_mem_definition (h : t.definition? upperIsNow = some definition)
    {t' : TemplateToken} (ht' : .token t' ∈ templateToken.segments definition) :
    t'.definition? upperIsNow = none := by
  have hall : (templateToken.segments definition).all fun
      | .plain _ => true
      | .token t => (t.definition? upperIsNow).isNone := by
    rcases definition?_cases h with ⟨-, rfl⟩ | ⟨-, rfl⟩
    · cases upperIsNow <;> decide +kernel
    · cases upperIsNow <;> decide +kernel
  exact Option.isNone_iff_eq_none.1 (List.all_eq_true.1 hall _ ht')

end TemplateToken

namespace Symbols

variable (s : Symbols) {t : TemplateToken} {definition : Text}

/-- A placeholder without a definition has the value it has while the table is made. -/
theorem value_eq_baseValue {upperIsNow : Bool} {p : Placeholder}
    (h : TemplateToken.definition? upperIsNow (.placeholder p) = none) :
    s.value p = s.baseValue p := by
  cases p with
  | timeSeries => cases h
  | timeFilter => cases h
  | _ => rfl

/-- The value of a derived placeholder is the rendering of its definition. -/
theorem render_definition (h : t.definition? s.time.upperIsNow = some definition) :
    s.render definition = s.textOf t := by
  have hbase : s.render definition = renderWith s.baseValue definition := by
    rw [render_eq_fill]
    refine Segment.fill_congr fun t' ht' => ?_
    have hnone := TemplateToken.definition?_of_mem_definition h ht'
    cases t' with
    | placeholder p => exact s.value_eq_baseValue hnone
    | lineBreak b => rfl
  rcases TemplateToken.definition?_cases h with ⟨rfl, rfl⟩ | ⟨rfl, rfl⟩
  · exact hbase
  · exact hbase

/-- No token reaches out of a definition to the right. -/
theorem render_definition_append (h : t.definition? s.time.upperIsNow = some definition)
    (rest : Text) : s.render (definition ++ rest) = s.textOf t ++ s.render rest := by
  obtain ⟨front, last, rfl, hlast, hhead⟩ := TemplateToken.exists_definition_eq h
  have hseam (u : Text) : templateToken.Seam TemplateToken.Stands (last ++ u) := by
    refine TemplateToken.templateToken_seam ?_
    rw [List.head?_append, hhead]
    rintro _ ⟨⟩
    decide
  have hsplit (u : Text) : s.render (front ++ (last ++ u)) =
      s.render front ++ (last ++ s.render u) := by
    rw [render_append_of_seam (hseam u), hlast.render_append]
  have hdefinition : s.textOf t = s.render front ++ last := by
    rw [← s.render_definition h, ← List.append_nil (front ++ last), List.append_assoc, hsplit]
    simp [render_eq_fill]
  rw [List.append_assoc, hsplit, hdefinition, List.append_assoc]

/-- Definitions written into the segments of a template from one on render like these segments. -/
theorem render_print_append_fill {template : Text} {before after : List (Segment TemplateToken)}
    (h : templateToken.segments template = before ++ after) :
    s.render (templateToken.print before
        ++ Segment.fill (TemplateToken.expansion s.time.upperIsNow) after) =
      Segment.fill s.textOf (before ++ after) := by
  induction after generalizing before template with
  | nil =>
    rw [List.append_nil] at h
    rw [Segment.fill_nil, List.append_nil, List.append_nil, ← h, templateToken.print_segments,
      render_eq_fill]
  | cons x after ih =>
    have hpass : templateToken.segments template = (before ++ [x]) ++ after := by
      rw [h, List.append_assoc, List.singleton_append]
    cases x with
    | plain c =>
      have hrest := ih hpass
      simpa [TokenRule.print] using hrest
    | token t =>
      cases hdefinition : t.definition? s.time.upperIsNow with
      | none =>
        have hrest := ih hpass
        have hexpansion : t.expansion s.time.upperIsNow = templateToken.spell t := by
          rw [TemplateToken.expansion, hdefinition]
          rfl
        simpa [TokenRule.print, hexpansion] using hrest
      | some definition =>
        have hexpansion : t.expansion s.time.upperIsNow = definition := by
          rw [TemplateToken.expansion, hdefinition]
          rfl
        have hseam : templateToken.Seam TemplateToken.Stands
            (templateToken.print (.token t :: after)) := by
          rcases TemplateToken.definition?_cases hdefinition with ⟨rfl, -⟩ | ⟨rfl, -⟩
          · exact Placeholder.templateToken_seam .timeSeries _
          · exact Placeholder.templateToken_seam .timeFilter _
        have hbefore := hseam.segments_print TemplateToken.templateToken_keepsApart h
        have hrest : s.render (Segment.fill (TemplateToken.expansion s.time.upperIsNow) after) =
            Segment.fill s.textOf after := by
          have hafter := TokenRule.segments_print_of_append hpass
          rw [← List.nil_append after] at hafter
          exact ih hafter
        rw [Segment.fill_cons_token, hexpansion,
          render_append_of_seam (TemplateToken.seam_definition hdefinition _),
          s.render_definition_append hdefinition, hrest,
          s.render_eq_fill (templateToken.print before), hbefore, Segment.fill_append,
          Segment.fill_cons_token]

/-- A template and what comes of it when its derived placeholders are replaced by their definitions
are rendered alike. -/
theorem render_expandDerived (template : Text) :
    s.render (expandDerived s.time.upperIsNow template) = s.render template := by
  have h := s.render_print_append_fill (List.nil_append (templateToken.segments template)).symm
  rwa [List.nil_append, ← render_eq_fill] at h

/-- A definition is written where the renderer finds the token, and nowhere inside it. -/
example : expandDerived true "$$timeFilterX, $timeSerie".toList =
    "$$timeCol >= toDate($from) AND $dateTimeCol >= toDateTime($from)X, $timeSerie".toList := by
  decide +kernel

end Symbols

end SeriesQuery
