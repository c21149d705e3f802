import SeriesQuery.Proofs.Macro.Nesting
import SeriesQuery.Variable.Substitution

/-!
# Values leave the structure of a text alone

A value that is put into query text can hold quotes, commas and parentheses of its own. As long as
references to known variables stand outside literals (`RefersOutside`) and these variables write
their values as literals (`WritesLiterals`), no value can be told from another by a scan: it comes
to every character of the template in the state in which it comes there without substitution, or
has stopped at the same closing parenthesis before (`substitute_keeps_nesting`).

The argument is a simulation of two scans over one list of segments (`Nesting.scan_fill_congr`).
What a token stands for and what spells it have to move the scan alike, but only from the states in
which the scan can come to it.
-/

namespace SeriesQuery

open Text

/-! ## Scans over segments -/

/-- Two readings of the tokens of a text leave a scan in the same state, if they do so for each
token from the state in which the scan comes to it. -/
theorem Nesting.scan_fill_congr {τ : Type} {value value' : τ → Text} :
    ∀ {segments : List (Segment τ)} {n : Nesting},
      (∀ before t after m, segments = before ++ .token t :: after →
        n.scan (Segment.fill value' before) = some m → m.scan (value t) = m.scan (value' t)) →
      n.scan (Segment.fill value segments) = n.scan (Segment.fill value' segments)
  | [], _, _ => rfl
  | .plain c :: segments, n, h => by
    rw [Segment.fill_cons_plain, Segment.fill_cons_plain, scan_cons, scan_cons]
    cases hstep : n.advance c with
    | none => rfl
    | some k =>
      refine scan_fill_congr fun before t after m he hm => ?_
      refine h (.plain c :: before) t after m (congrArg _ he) ?_
      rw [Segment.fill_cons_plain, scan_cons, hstep]
      exact hm
  | .token t :: segments, n, h => by
    have hhead : n.scan (value t) = n.scan (value' t) := h [] t segments n rfl rfl
    rw [Segment.fill_cons_token, Segment.fill_cons_token, scan_append, scan_append, hhead]
    cases hstep : n.scan (value' t) with
    | none => rfl
    | some k =>
      refine scan_fill_congr fun before u after m he hm => ?_
      refine h (.token t :: before) u after m (congrArg _ he) ?_
      rw [Segment.fill_cons_token, scan_append, hstep]
      exact hm

/-- A reference with a word for its name leaves a scan where it is. -/
theorem Nesting.scan_spell {n : Nesting} (hn : n.mode = .outside) {r : Reference}
    (hname : ∀ c ∈ r.name, isWordChar c) : n.scan r.spell = some n := by
  obtain ⟨form, name⟩ := r
  have hword : ∀ c ∈ name, IsInert c := fun c hc => isInert_of_isWordChar (hname c hc)
  have hopening : ∀ c ∈ form.opening, IsInert c := by
    cases form <;> simp [ReferenceForm.opening, IsInert]
  have hclosing : ∀ c ∈ form.closing, IsInert c := by
    cases form <;> simp [ReferenceForm.closing, IsInert]
  refine scan_of_inert hn fun c hc => ?_
  rcases List.mem_append.1 hc with hc | hc
  · rcases List.mem_append.1 hc with hc | hc
    · exact hopening c hc
    · exact hword c hc
  · exact hclosing c hc

/-! ## Values as literals -/

namespace Variable

/-- Whether a variable writes each of its values as a literal: it can take several, and not all of
its options are numbers. -/
def WritesLiterals (v : Variable) : Prop :=
  (v.multi || v.includeAll) ∧ ∃ o ∈ v.optionValues, ¬ isNumeral o

instance (v : Variable) : Decidable v.WritesLiterals := inferInstanceAs (Decidable (_ ∧ _))

/-- A variable that writes literals quotes its values. -/
theorem escapeText_eq_quote {v : Variable} (hv : v.WritesLiterals) (text : Text) :
    v.escapeText text = quote text := by
  obtain ⟨-, o, ho, hno⟩ := hv
  exact if_neg fun hnum => hno (isNumeric_iff.1 hnum o ho)

/-- A value that is written as literals leaves a scan where it is, whatever it is. -/
theorem scan_interpolate {v : Variable} (hv : v.WritesLiterals) {n : Nesting}
    (hn : n.mode = .outside) (value : Value) : n.scan (v.interpolate value) = some n := by
  cases value with
  | single text =>
    rw [interpolate_single hv.1, escapeText_eq_quote hv]
    exact Nesting.scan_quote hn text
  | multi texts =>
    rw [interpolate_multi hv.1]
    refine Nesting.scan_join (Nesting.scan_of_inert hn (by decide)) fun p hp => ?_
    obtain ⟨text, _, rfl⟩ := List.mem_map.1 hp
    rw [escapeText_eq_quote hv]
    exact Nesting.scan_quote hn text

end Variable

/-! ## Substitution -/

namespace Registry

/-- Every reference of a text to a known variable stands outside literals, if a scan of the text
comes to it at all. -/
def RefersOutside (registry : Registry) (scope : Scope) (text : Text) : Prop :=
  ∀ before r after n, reference.segments text = before ++ .token r :: after →
    (registry.value? scope r.name).isSome →
    Nesting.top.scan (reference.print before) = some n → n.mode = .outside

/-- Every known variable that a text refers to is registered and writes its values as literals. -/
def WritesLiterals (registry : Registry) (scope : Scope) (text : Text) : Prop :=
  ∀ r, .token r ∈ reference.segments text → (registry.value? scope r.name).isSome →
    ∃ v, registry.get? r.name = some v ∧ v.WritesLiterals

variable {registry : Registry} {scope : Scope} {text : Text}

/-- Up to every place of a text, a scan of what its references stand for is in the same state as a
scan of the text. -/
theorem scan_fill_textOf (hout : registry.RefersOutside scope text)
    (hlit : registry.WritesLiterals scope text) {before after : List (Segment Reference)}
    (hseg : reference.segments text = before ++ after) :
    Nesting.top.scan (Segment.fill (registry.textOf scope .query) before) =
      Nesting.top.scan (reference.print before) := by
  refine Nesting.scan_fill_congr fun front r back n hbefore hscan => ?_
  have hsplit : reference.segments text = front ++ .token r :: (back ++ after) := by
    rw [hseg, hbefore, List.append_assoc, List.cons_append]
  have hmem : .token r ∈ reference.segments text :=
    hsplit ▸ List.mem_append_right _ (List.mem_cons_self ..)
  cases hvalue : registry.value? scope r.name with
  | none =>
    rw [textOf_of_value?_eq_none .query hvalue]
    rfl
  | some value =>
    have hknown : (registry.value? scope r.name).isSome := hvalue ▸ rfl
    obtain ⟨v, hget, hv⟩ := hlit r hmem hknown
    have hmode : n.mode = .outside := hout front r _ n hsplit hknown hscan
    obtain ⟨s, rest, hread⟩ := reference.exists_read?_of_mem_segmentsFrom hmem
    have hspell : n.scan r.spell = some n :=
      Nesting.scan_spell hmode fun c hc => Reference.isWordChar_of_mem_name hread hc
    rw [textOf_of_get? .query hget hvalue]
    exact (Variable.scan_interpolate hv hmode _).trans hspell.symm

/-- Values cannot change the structure of a text in which every reference to a known variable
stands outside literals and every such variable writes its values as literals. However the text is
cut between two segments, a scan of the substituted text comes to the cut in the same state as a
scan of the text itself, or neither of them comes there. So no two assignments of values can be
told apart by the states in which a scan comes to the template's own text. -/
theorem substitute_keeps_nesting (registry : Registry) (scope : Scope) (text : Text)
    (hout : registry.RefersOutside scope text) (hlit : registry.WritesLiterals scope text) :
    (∀ before after, reference.segments text = before ++ after →
      text = reference.print before ++ reference.print after ∧
      registry.substitute scope .query text =
        Segment.fill (registry.textOf scope .query) before ++
          Segment.fill (registry.textOf scope .query) after ∧
      Nesting.top.scan (Segment.fill (registry.textOf scope .query) before) =
        Nesting.top.scan (reference.print before)) ∧
    ∀ (registry' : Registry) (scope' : Scope),
      registry'.RefersOutside scope' text → registry'.WritesLiterals scope' text →
      ∀ before after, reference.segments text = before ++ after →
        Nesting.top.scan (Segment.fill (registry.textOf scope .query) before) =
          Nesting.top.scan (Segment.fill (registry'.textOf scope' .query) before) := by
  refine ⟨fun before after hseg => ⟨?_, ?_, scan_fill_textOf hout hlit hseg⟩,
    fun registry' scope' hout' hlit' before after hseg => ?_⟩
  · rw [TokenRule.print, TokenRule.print, ← Segment.fill_append, ← hseg]
    exact (reference.print_segments text).symm
  · rw [substitute, TokenRule.substitute, hseg, Segment.fill_append]
  · rw [scan_fill_textOf hout hlit hseg, scan_fill_textOf hout' hlit' hseg]

/-- A registry of one variable, whose values have to be escaped. -/
def ofHost (current : Value) : Registry :=
  ofVariables [{ name := "host".toList, includeAll := true, options := ["a')".toList], current }]

/-- A text that refers to the variable outside literals and to an unknown name in one. -/
def hostTemplate : Text := "f('$x',[[host]])".toList

theorem segments_hostTemplate : reference.segments hostTemplate =
    [.plain 'f', .plain '(', .plain '\'', .token ⟨.bare, "x".toList⟩, .plain '\'', .plain ',',
      .token ⟨.bracketed, "host".toList⟩, .plain ')'] := by
  decide

/-- The known reference of the template stands outside its literal. -/
theorem refersOutside_hostTemplate (current : Value) :
    (ofHost current).RefersOutside .empty hostTemplate := by
  intro before r after n he hknown hscan
  rw [segments_hostTemplate] at he
  simp only [List.cons_eq_append_iff, List.nil_eq_append_iff, List.cons.injEq,
    Segment.token.injEq, reduceCtorEq, false_and, and_false, false_or, or_false, exists_false] at he
  obtain ⟨_, rfl, _, rfl, _, rfl, ⟨rfl, rfl, rfl⟩ | ⟨_, rfl, _, rfl, _, rfl, rfl, rfl, rfl⟩⟩ := he
  · cases hknown
  · cases hscan
    rfl

/-- The variable of the template writes literals. -/
theorem writesLiterals_hostTemplate (current : Value) :
    (ofHost current).WritesLiterals .empty hostTemplate := by
  intro r hmem hknown
  rw [segments_hostTemplate] at hmem
  simp only [List.mem_cons, Segment.token.injEq, reduceCtorEq, false_or, List.not_mem_nil,
    or_false] at hmem
  rcases hmem with rfl | rfl
  · cases hknown
  · exact ⟨_, rfl, rfl, "a')".toList, List.mem_cons_self .., by decide⟩

/-- Values that would end a literal and close a parenthesis if they were not escaped. -/
def hostValues : Value := .multi ["');".toList, "\\".toList]

/-- Values with quotes and parentheses leave a scan of the template where other values leave it. -/
theorem substitute_keeps_nesting_hostTemplate :
    (ofHost hostValues).RefersOutside .empty hostTemplate ∧
    (ofHost hostValues).WritesLiterals .empty hostTemplate ∧
    (ofHost (.single allOptions)).RefersOutside .empty hostTemplate ∧
    (ofHost (.single allOptions)).WritesLiterals .empty hostTemplate ∧
    reference.segments hostTemplate =
      (reference.segments hostTemplate).dropLast ++ [.plain ')'] ∧
    Nesting.top.scan (Segment.fill ((ofHost hostValues).textOf .empty .query)
      (reference.segments hostTemplate).dropLast) = some ⟨1, .outside⟩ ∧
    Nesting.top.scan (Segment.fill ((ofHost (.single allOptions)).textOf .empty .query)
      (reference.segments hostTemplate).dropLast) = some ⟨1, .outside⟩ := by
  have hout := refersOutside_hostTemplate
  have hlit := writesLiterals_hostTemplate
  have hseg : reference.segments hostTemplate =
      (reference.segments hostTemplate).dropLast ++ [.plain ')'] := by decide
  have hscan : Nesting.top.scan (reference.print (reference.segments hostTemplate).dropLast) =
      some ⟨1, .outside⟩ := by decide
  obtain ⟨htemplate, htwo⟩ :=
    substitute_keeps_nesting (ofHost hostValues) .empty hostTemplate (hout _) (hlit _)
  have hvalues := (htemplate _ _ hseg).2.2.trans hscan
  have hsame := htwo (ofHost (.single allOptions)) .empty (hout _) (hlit _) _ _ hseg
  exact ⟨hout _, hlit _, hout _, hlit _, hseg, hvalues, hsame.symm.trans hvalues⟩

end Registry

end SeriesQuery
