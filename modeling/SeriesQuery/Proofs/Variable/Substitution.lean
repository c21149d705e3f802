import SeriesQuery.Proofs.Variable.Reference
import SeriesQuery.Variable.Substitution

/-!
# Substitution is one pass

The text alone fixes where its references are: it has exactly one division into references and
plain characters (`TokenRule.existsUnique_cuts`). Substitution writes each reference of that
division as what its name stands for, copies every other character, and looks at nothing it has
written (`substitute_division`). So a text without known references stays as it is, and no variable
that a text does not refer to makes a difference to it.
-/

namespace SeriesQuery

open Text

namespace Registry

variable {registry registry' : Registry} {scope scope' : Scope} {format : Format} {text : Text}

/-- What a segment is written as: a plain character or an unknown reference as it is, a known
reference as its value. The value that the request sets goes before the one of the registered
variable, which decides about the form in either case. -/
inductive Writes (registry : Registry) (scope : Scope) (format : Format) :
    Segment Reference → Text → Prop
  | plain (c : Char) : Writes registry scope format (.plain c) [c]
  | unknown {r : Reference} (hscope : scope.get? r.name = none)
      (hregistry : registry.get? r.name = none) : Writes registry scope format (.token r) r.spell
  | registered {r : Reference} {v : Variable} (hscope : scope.get? r.name = none)
      (hregistry : registry.get? r.name = some v) :
      Writes registry scope format (.token r) (format v (v.expandAll v.current))
  | scoped {r : Reference} {v : Variable} {value : Value} (hscope : scope.get? r.name = some value)
      (hregistry : registry.get? r.name = some v) :
      Writes registry scope format (.token r) (format v (v.expandAll value))
  | unregistered {r : Reference} {value : Value} (hscope : scope.get? r.name = some value)
      (hregistry : registry.get? r.name = none) :
      Writes registry scope format (.token r) (format { name := r.name, current := value } value)

/-- A segment is written as its own character or as what its reference stands for. -/
theorem writes_piece (registry : Registry) (scope : Scope) (format : Format)
    (segment : Segment Reference) :
    registry.Writes scope format segment (segment.piece (registry.textOf scope format)) := by
  cases segment with
  | plain c => exact .plain c
  | token r =>
    rw [Segment.piece]
    cases hscope : scope.get? r.name with
    | none =>
      cases hregistry : registry.get? r.name with
      | none =>
        have hvalue : registry.value? scope r.name = none := by simp [value?, hscope, hregistry]
        rw [textOf_of_value?_eq_none format hvalue]
        exact .unknown hscope hregistry
      | some v =>
        have hvalue : registry.value? scope r.name = some v.current := by
          simp [value?, hscope, hregistry]
        rw [textOf_of_get? format hregistry hvalue]
        exact .registered hscope hregistry
    | some value =>
      have hvalue : registry.value? scope r.name = some value := by simp [value?, hscope]
      cases hregistry : registry.get? r.name with
      | none =>
        have htext : registry.textOf scope format r =
            format { name := r.name, current := value } value := by
          simp [textOf, textOf?, hvalue, variableOf, hregistry, Variable.expandAll]
        rw [htext]
        exact .unregistered hscope hregistry
      | some v =>
        rw [textOf_of_get? format hregistry hvalue]
        exact .scoped hscope hregistry

/-- What a reference stands for hangs on its own name only. -/
theorem textOf_congr {r : Reference} (hscope : scope'.get? r.name = scope.get? r.name)
    (hregistry : registry'.get? r.name = registry.get? r.name) :
    registry'.textOf scope' format r = registry.textOf scope format r := by
  simp only [textOf, textOf?, value?, variableOf, hscope, hregistry]

/-- Substitution leaves a text without known references as it is. -/
theorem substitute_eq_self (h : ∀ r, .token r ∈ reference.segments text →
      scope.get? r.name = none ∧ registry.get? r.name = none) :
    registry.substitute scope format text = text := by
  have hspell : ∀ r, .token r ∈ reference.segments text →
      registry.textOf scope format r = reference.spell r := by
    intro r hr
    obtain ⟨hscope, hregistry⟩ := h r hr
    exact textOf_of_value?_eq_none format (by simp [value?, hscope, hregistry])
  rw [substitute, TokenRule.substitute, Segment.fill_congr hspell]
  exact reference.print_segments text

/-- A text has exactly one division into references and plain characters, whatever the variables
are, and substitution writes that division segment by segment. It leaves a text as it is that refers
to no known variable, and it is the same for all variables that agree on the names that the text
refers to. -/
theorem substitute_division (text : Text) :
    (∃! segments, reference.Cuts Reference.Stands text segments) ∧
    ∀ segments, reference.Cuts Reference.Stands text segments →
      ∀ (registry : Registry) (scope : Scope) (format : Format),
        (∃ pieces, List.Forall₂ (registry.Writes scope format) segments pieces ∧
          registry.substitute scope format text = pieces.flatten) ∧
        ((∀ r, .token r ∈ segments → scope.get? r.name = none ∧ registry.get? r.name = none) →
          registry.substitute scope format text = text) ∧
        ∀ (registry' : Registry) (scope' : Scope),
          (∀ r, .token r ∈ segments → scope'.get? r.name = scope.get? r.name ∧
            registry'.get? r.name = registry.get? r.name) →
          registry'.substitute scope' format text = registry.substitute scope format text := by
  refine ⟨TokenRule.existsUnique_cuts Reference.reference_keepsApart text,
    fun segments hcuts registry scope format => ?_⟩
  obtain rfl := hcuts.eq_segments Reference.reference_keepsApart
  refine ⟨⟨_, Segment.forall₂_map (writes_piece registry scope format) _,
    Segment.fill_eq_flatten _ _⟩, substitute_eq_self, fun registry' scope' h => ?_⟩
  exact Segment.fill_congr fun r hr => textOf_congr (h r hr).1 (h r hr).2

/-- A text of nested and broken references. -/
def nestedTemplate : Text := "$$a[[[a]]]$\x7ba$ab".toList

theorem segments_nestedTemplate : reference.segments nestedTemplate =
    [.plain '$', .token ⟨.bare, "a".toList⟩, .plain '[', .token ⟨.bracketed, "a".toList⟩,
      .plain ']', .plain '$', .plain '\x7b', .plain 'a', .token ⟨.bare, "ab".toList⟩] := by
  decide

/-- A registry in which the value of one variable looks like a reference. -/
def ofLetter : Registry :=
  ofVariables [{ name := "a".toList, current := .single "$ab".toList }]

/-- Nested and broken references are cut in one way, and no value is taken for a reference. -/
theorem substitute_division_nestedTemplate :
    ∃ segments, reference.Cuts Reference.Stands nestedTemplate segments ∧
      (∃ pieces, List.Forall₂ (ofLetter.Writes .empty .query) segments pieces ∧
        pieces.flatten = "$$ab[$ab]$\x7ba$ab".toList) ∧
      (ofVariables []).substitute .empty .query nestedTemplate = nestedTemplate ∧
      substitute (ofLetter.insert "b".toList { name := "b".toList }) .empty .query nestedTemplate =
        ofLetter.substitute .empty .query nestedTemplate := by
  obtain ⟨⟨segments, hcuts, -⟩, hall⟩ := substitute_division nestedTemplate
  have hsegments := hcuts.eq_segments Reference.reference_keepsApart
  rw [segments_nestedTemplate] at hsegments
  obtain ⟨⟨pieces, hpieces, hflat⟩, -, hagree⟩ := hall segments hcuts ofLetter .empty .query
  have hvalue : ofLetter.substitute .empty .query nestedTemplate =
      "$$ab[$ab]$\x7ba$ab".toList := by decide
  refine ⟨segments, hcuts, ⟨pieces, hpieces, hflat.symm.trans hvalue⟩,
    (hall segments hcuts (ofVariables []) .empty .query).2.1 fun r _ => ⟨rfl, rfl⟩,
    hagree (ofLetter.insert "b".toList { name := "b".toList }) .empty fun r hr => ⟨rfl, ?_⟩⟩
  rw [Store.get?_insert]
  subst hsegments
  simp only [List.mem_cons, Segment.token.injEq, reduceCtorEq, false_or, List.not_mem_nil,
    or_false] at hr
  rcases hr with rfl | rfl | rfl <;> rfl

end Registry

end SeriesQuery
