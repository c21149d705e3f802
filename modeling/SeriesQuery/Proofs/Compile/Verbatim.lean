import Mathlib.Data.Bool.AllAny
import Mathlib.Data.List.Chain
import SeriesQuery.Proofs.Compile.Outcome
import SeriesQuery.Proofs.Placeholder
import SeriesQuery.Proofs.Variable.Reference

/-!
# Text that the later stages copy

Behind the macro call, a query is substituted into and rendered. A text without dollar signs, double
brackets and line breaks (`IsVerbatim`) goes through both stages as it is, whatever stands behind it
(`Target.finish_append`). Such texts are closed under joining with characters that can be part of no
token (`IsVerbatim.glue`), so no token forms where two of them meet. A placeholder becomes its value
behind any text, unless a variable has its name (`Target.finish_append_reserved`): no token reaches
into it from the left, since a dollar sign only begins tokens.
-/

namespace SeriesQuery

open Text

/-- A text with no dollar sign, no double bracket and no line break. -/
structure IsVerbatim (s : Text) : Prop where
  dollar : '$' ∉ s
  brackets : ¬ "[[".toList <:+: s
  lineBreak : '\r' ∉ s ∧ '\n' ∉ s

/-- A character that is part of no token and no opening bracket. -/
def IsQuiet (c : Char) : Prop := c ≠ '$' ∧ c ≠ '[' ∧ c ≠ '\r' ∧ c ≠ '\n'

instance (c : Char) : Decidable (IsQuiet c) := inferInstanceAs (Decidable (_ ∧ _))

/-- A text of such characters. -/
def AllQuiet (s : Text) : Prop := ∀ c ∈ s, IsQuiet c

instance (s : Text) : Decidable (AllQuiet s) :=
  decidable_of_iff (s.all fun c => IsQuiet c) List.all_iff_forall_prop

theorem AllQuiet.append {s t : Text} (hs : AllQuiet s) (ht : AllQuiet t) : AllQuiet (s ++ t) :=
  List.forall_mem_append.2 ⟨hs, ht⟩

/-- No character of a word is part of a token or an opening bracket. -/
theorem isQuiet_of_isWordChar {c : Char} (h : isWordChar c) : IsQuiet c := by
  refine ⟨?_, ?_, ?_, ?_⟩
  all_goals
    rintro rfl
    exact absurd h (by decide)

/-- A double bracket is an opening bracket next to another. -/
theorem not_brackets_infix_iff {s : Text} :
    ¬ "[[".toList <:+: s ↔ s.IsChain fun a b => ¬ (a = '[' ∧ b = '[') := by
  rw [List.isChain_iff_forall_rel_of_append_cons_cons]
  constructor
  · rintro h _ _ before after rfl ⟨rfl, rfl⟩
    exact h ⟨before, after, by simp⟩
  · rintro h ⟨before, after, rfl⟩
    exact @h _ _ before after (by simp) ⟨rfl, rfl⟩

namespace IsVerbatim

variable {u v s : Text}

/-- A text without any part of a token is copied as it is. -/
theorem of_allQuiet (h : AllQuiet s) : IsVerbatim s where
  dollar hmem := (h _ hmem).1 rfl
  brackets hopen := (h '[' (hopen.subset (List.mem_cons_self ..))).2.1 rfl
  lineBreak := ⟨fun hmem => (h _ hmem).2.2.1 rfl, fun hmem => (h _ hmem).2.2.2 rfl⟩

/-- No double bracket forms where two texts meet at another character. -/
theorem append (hu : IsVerbatim u) (hv : IsVerbatim v)
    (h : (∀ c ∈ u.getLast?, c ≠ '[') ∨ ∀ c ∈ v.head?, c ≠ '[') : IsVerbatim (u ++ v) where
  dollar hmem := (List.mem_append.1 hmem).elim hu.dollar hv.dollar
  brackets := by
    rw [not_brackets_infix_iff, List.isChain_append]
    refine ⟨not_brackets_infix_iff.1 hu.brackets, not_brackets_infix_iff.1 hv.brackets, ?_⟩
    rintro a ha b hb ⟨rfl, rfl⟩
    exact h.elim (fun h => h _ ha rfl) fun h => h _ hb rfl
  lineBreak := ⟨fun hmem => (List.mem_append.1 hmem).elim hu.lineBreak.1 hv.lineBreak.1,
    fun hmem => (List.mem_append.1 hmem).elim hu.lineBreak.2 hv.lineBreak.2⟩

/-- Nothing arises where a quiet text stands in front. -/
theorem quiet_append {g : Text} (hg : AllQuiet g) (hv : IsVerbatim v) :
    IsVerbatim (g ++ v) :=
  (of_allQuiet hg).append hv (.inl fun c hc => (hg c (List.mem_of_mem_getLast? hc)).2.1)

/-- Nothing arises where a quiet text stands behind. -/
theorem append_quiet {g : Text} (hu : IsVerbatim u) (hg : AllQuiet g) :
    IsVerbatim (u ++ g) :=
  hu.append (of_allQuiet hg) (.inr fun c hc => (hg c (List.mem_of_mem_head? hc)).2.1)

/-- Quiet characters, at least one, keep two texts apart. -/
theorem glue {g : Text} (hu : IsVerbatim u) (hv : IsVerbatim v) (hg : AllQuiet g)
    (hne : g ≠ []) : IsVerbatim (u ++ g ++ v) := by
  refine (hu.append_quiet hg).append hv (.inl fun c hc => ?_)
  rw [List.getLast?_append_of_ne_nil _ hne] at hc
  exact (hg c (List.mem_of_mem_getLast? hc)).2.1

/-- Texts that quiet characters separate. -/
theorem join {sep : Text} (hsep : AllQuiet sep) (hne : sep ≠ []) :
    ∀ {parts : List Text}, (∀ p ∈ parts, IsVerbatim p) → IsVerbatim (join sep parts)
  | [], _ => of_allQuiet nofun
  | [p], h => by
    rw [join_singleton]
    exact h p (List.mem_cons_self ..)
  | p :: q :: parts, h => by
    rw [Text.join, List.intercalate_cons_of_ne_nil (List.cons_ne_nil q parts)]
    exact (h p (List.mem_cons_self ..)).glue
      (join hsep hne fun r hr => h r (List.mem_cons_of_mem p hr)) hsep hne

/-! ## Substitution -/

/-- No reference begins in the text, unless its last bracket meets another one. -/
theorem segments_reference (hu : IsVerbatim u) (hs : ∀ c ∈ s.head?, c ≠ '[') :
    reference.segments (u ++ s) = u.map .plain ++ reference.segments s := by
  refine TokenRule.segments_append fun c v hsuffix => ?_
  cases hread : reference.read? (c :: v ++ s) with
  | none => rfl
  | some p =>
    obtain ⟨r, rest⟩ := p
    obtain ⟨he, hstands⟩ := Reference.read?_eq_some_iff.1 hread
    obtain ⟨c', d, t, hspell, hleads⟩ := hstands.exists_leads
    rw [hspell, List.cons_append, List.cons_append, List.cons.injEq] at he
    obtain ⟨rfl, he⟩ := he
    exfalso
    rcases Reference.eq_of_leads hleads with rfl | ⟨rfl, rfl⟩
    · exact hu.dollar (hsuffix.subset (List.mem_cons_self ..))
    · cases v with
      | nil => exact hs '[' (by rw [← List.nil_append s, he]; rfl) rfl
      | cons e v =>
        obtain ⟨rfl, -⟩ := List.cons.inj he
        refine hu.brackets (List.IsInfix.trans ⟨[], v, rfl⟩ hsuffix.isInfix)

/-- Substitution copies the text. -/
theorem substitute_append (hu : IsVerbatim u) (hs : ∀ c ∈ s.head?, c ≠ '[') (registry : Registry)
    (scope : Scope) (format : Format) :
    registry.substitute scope format (u ++ s) = u ++ registry.substitute scope format s := by
  rw [Registry.substitute, TokenRule.substitute, hu.segments_reference hs, Segment.fill_append,
    Segment.fill_map_plain]
  rfl

/-! ## Rendering -/

/-- No token of a template begins in the text. -/
theorem segments_templateToken (hu : IsVerbatim u) (s : Text) :
    templateToken.segments (u ++ s) = u.map .plain ++ templateToken.segments s := by
  refine TokenRule.segments_append fun c v hsuffix => ?_
  have hc : c ∈ u := hsuffix.subset (List.mem_cons_self ..)
  cases hread : templateToken.read? (c :: v ++ s) with
  | none => rfl
  | some p =>
    obtain ⟨t, rest⟩ := p
    obtain ⟨he, -⟩ := TemplateToken.read?_eq_some_iff.1 hread
    obtain ⟨c', w, hspell, hopening, -⟩ := TemplateToken.exists_spell_eq_cons t
    rw [hspell, List.cons_append, List.cons_append, List.cons.injEq] at he
    obtain ⟨rfl, -⟩ := he
    rcases hopening with rfl | rfl | rfl
    · exact absurd hc hu.dollar
    · exact absurd hc hu.lineBreak.1
    · exact absurd hc hu.lineBreak.2

/-- Rendering copies the text. -/
theorem render_append (hu : IsVerbatim u) (s : Symbols) (t : Text) :
    s.render (u ++ t) = u ++ s.render t := by
  rw [Symbols.render_eq_fill, hu.segments_templateToken, Segment.fill_append,
    Segment.fill_map_plain, ← Symbols.render_eq_fill]

end IsVerbatim

/-! ## Tokens between such texts -/

/-- To substitution, a placeholder is a reference to its name. -/
theorem Placeholder.spelling_eq_spell (p : Placeholder) :
    p.spelling = Reference.spell ⟨.bare, p.name⟩ := by
  rw [p.spelling_eq_cons, Reference.spell_bare]

/-- A placeholder is such a reference where the text does not go on its name. -/
theorem Placeholder.stands (p : Placeholder) {s : Text} (hs : ∀ c ∈ s.head?, ¬ isWordChar c) :
    Reference.Stands ⟨.bare, p.name⟩ s :=
  ⟨p.name_ne_nil, p.isWordChar_of_mem_name, fun _ => hs⟩

/-- Substitution writes a reference in front of a text as what it stands for. -/
theorem Registry.substitute_reference_append {r : Reference} {s : Text} (h : r.Stands s)
    (registry : Registry) (scope : Scope) (format : Format) :
    registry.substitute scope format (r.spell ++ s) =
      registry.textOf scope format r ++ registry.substitute scope format s := by
  have hread : reference.read? (r.spell ++ s) = some (r, s) :=
    Reference.read?_eq_some_iff.2 ⟨rfl, h⟩
  rw [substitute, TokenRule.substitute, reference.segments_of_read? hread, Segment.fill_cons_token]
  rfl

/-- Rendering writes a token in front of a text as what it stands for. -/
theorem Symbols.render_token_append (s : Symbols) {token : TemplateToken} {t : Text}
    (h : token.Stands t) : s.render (token.spell ++ t) = s.textOf token ++ s.render t := by
  have hread : templateToken.read? (token.spell ++ t) = some (token, t) :=
    TemplateToken.read?_eq_some_iff.2 ⟨rfl, h⟩
  rw [render_eq_fill, templateToken.segments_of_read? hread, Segment.fill_cons_token,
    ← render_eq_fill]

/-- Rendering writes a placeholder as its value, whatever stands behind it. -/
theorem Symbols.render_placeholder_append (s : Symbols) (p : Placeholder) (t : Text) :
    s.render (p.spelling ++ t) = s.value p ++ s.render t := by
  have h : TemplateToken.Stands (.placeholder p) t := nofun
  exact s.render_token_append h

/-- Rendering writes a line break as a space. -/
theorem Symbols.render_lineBreak_append (s : Symbols) {b : LineBreak} {t : Text}
    (h : TemplateToken.Stands (.lineBreak b) t) :
    s.render (b.spelling ++ t) = ' ' :: s.render t :=
  s.render_token_append h

/-! ## Behind any text -/

/-- Substitution treats the two sides of a seam each on its own. -/
theorem Registry.substitute_append_of_seam {v : Text} (hv : reference.Seam Reference.Stands v)
    (registry : Registry) (scope : Scope) (format : Format) (u : Text) :
    registry.substitute scope format (u ++ v) =
      registry.substitute scope format u ++ registry.substitute scope format v := by
  rw [substitute, TokenRule.substitute, hv.segments_append Reference.reference_keepsApart,
    Segment.fill_append]
  rfl

/-- Rendering treats the two sides of a seam each on its own. -/
theorem Symbols.render_append_of_seam {v : Text} (hv : templateToken.Seam TemplateToken.Stands v)
    (s : Symbols) (u : Text) : s.render (u ++ v) = s.render u ++ s.render v := by
  rw [render_eq_fill, hv.segments_append TemplateToken.templateToken_keepsApart,
    Segment.fill_append, ← render_eq_fill, ← render_eq_fill]

namespace Placeholder

variable (p : Placeholder) (s : Text)

/-- No reference reaches into a placeholder from the left. -/
theorem reference_seam : reference.Seam Reference.Stands (p.spelling ++ s) := by
  refine Reference.reference_seam ?_
  rw [p.spelling_eq_cons]
  rintro _ ⟨⟩
  decide

/-- No token of a template reaches into a placeholder from the left. -/
theorem templateToken_seam : templateToken.Seam TemplateToken.Stands (p.spelling ++ s) := by
  refine TemplateToken.templateToken_seam ?_
  rw [p.spelling_eq_cons]
  rintro _ ⟨⟩
  decide

/-- Behind any text, substitution writes a placeholder as what its name stands for. -/
theorem substitute_append (registry : Registry) (scope : Scope) (format : Format) (u : Text)
    (hs : ∀ c ∈ s.head?, ¬ isWordChar c) :
    registry.substitute scope format (u ++ (p.spelling ++ s)) =
      registry.substitute scope format u ++ (registry.textOf scope format ⟨.bare, p.name⟩
        ++ registry.substitute scope format s) := by
  rw [Registry.substitute_append_of_seam (p.reference_seam s), p.spelling_eq_spell,
    Registry.substitute_reference_append (p.stands hs)]

end Placeholder

/-! ## Characters that begin no token -/

/-- No reference begins at a quiet character. -/
theorem reference_read?_of_isQuiet {c : Char} (hc : IsQuiet c) (s : Text) :
    reference.read? (c :: s) = none := by
  cases hread : reference.read? (c :: s) with
  | none => rfl
  | some found =>
    obtain ⟨r, rest⟩ := found
    obtain ⟨he, hstands⟩ := Reference.read?_eq_some_iff.1 hread
    obtain ⟨c', d, t, hspell, hleads⟩ := hstands.exists_leads
    rw [hspell] at he
    obtain rfl := List.head_eq_of_cons_eq he
    rcases Reference.eq_of_leads hleads with rfl | ⟨rfl, -⟩
    · exact absurd rfl hc.1
    · exact absurd rfl hc.2.1

/-- No token of a template begins at a quiet character. -/
theorem templateToken_read?_of_isQuiet {c : Char} (hc : IsQuiet c) (s : Text) :
    templateToken.read? (c :: s) = none := by
  cases hread : templateToken.read? (c :: s) with
  | none => rfl
  | some found =>
    obtain ⟨t, rest⟩ := found
    obtain ⟨he, -⟩ := TemplateToken.read?_eq_some_iff.1 hread
    obtain ⟨c', w, hspell, hopening, -⟩ := TemplateToken.exists_spell_eq_cons t
    rw [hspell] at he
    obtain rfl := List.head_eq_of_cons_eq he
    rcases hopening with rfl | rfl | rfl
    · exact absurd rfl hc.1
    · exact absurd rfl hc.2.2.1
    · exact absurd rfl hc.2.2.2

/-- Substitution copies a character at which no reference begins. -/
theorem Registry.substitute_cons {c : Char} {s : Text} (h : reference.read? (c :: s) = none)
    (registry : Registry) (scope : Scope) (format : Format) :
    registry.substitute scope format (c :: s) = c :: registry.substitute scope format s := by
  rw [substitute, TokenRule.substitute, reference.segments_of_read?_eq_none h,
    Segment.fill_cons_plain]
  rfl

/-- Rendering copies a character at which no token begins. -/
theorem Symbols.render_cons (symbols : Symbols) {c : Char} {s : Text}
    (h : templateToken.read? (c :: s) = none) :
    symbols.render (c :: s) = c :: symbols.render s := by
  rw [render_eq_fill, templateToken.segments_of_read?_eq_none h, Segment.fill_cons_plain,
    ← render_eq_fill]

/-! ## Both stages -/

namespace Target

variable (t : Target) {registry : Registry} {request : Request} (time : TimeContext) {s : Text}

/-- Both stages copy the text, whatever stands behind it. -/
theorem finish_append {u : Text} (hu : IsVerbatim u) (hs : ∀ c ∈ s.head?, c ≠ '[') :
    t.finish registry request time (u ++ s) = u ++ t.finish registry request time s := by
  rw [finish, hu.substitute_append hs, hu.render_append]
  rfl

/-- Both stages leave a text alone that holds nothing else. -/
theorem finish_eq_self {u : Text} (hu : IsVerbatim u) : t.finish registry request time u = u := by
  have h : t.finish registry request time (u ++ []) = u ++ [] := finish_append t time hu nofun
  rwa [List.append_nil] at h

/-- Both stages copy such a text behind any other, unless a reference can go on with it. -/
theorem finish_append_of_seam {v : Text} (hv : IsVerbatim v)
    (hhead : ∀ c ∈ v.head?, ¬ Reference.IsInner c ∧ c ≠ '[') (u : Text) :
    t.finish registry request time (u ++ v) = t.finish registry request time u ++ v := by
  have hsubstitute : registry.substitute request.scope .query v = v := by
    have h := hv.substitute_append (s := []) nofun registry request.scope .query
    rwa [List.append_nil, show registry.substitute request.scope .query [] = [] from rfl,
      List.append_nil] at h
  have hrender : (t.symbols time).render v = v := by
    have h := hv.render_append (t.symbols time) []
    rwa [List.append_nil, show (t.symbols time).render [] = [] from rfl, List.append_nil] at h
  have htoken : ∀ c ∈ v.head?, ¬ isWordChar c ∧ c ≠ '\n' := by
    refine fun c hc => ⟨fun hword => (hhead c hc).1 (.inl hword), ?_⟩
    rintro rfl
    exact hv.lineBreak.2 (List.mem_of_mem_head? hc)
  rw [finish, Registry.substitute_append_of_seam (Reference.reference_seam hhead), hsubstitute,
    Symbols.render_append_of_seam (TemplateToken.templateToken_seam htoken), hrender, finish]

/-- Both stages copy quiet characters, whatever stands behind them. -/
theorem finish_quiet_append {g : Text} (hg : AllQuiet g) (s : Text) :
    t.finish registry request time (g ++ s) = g ++ t.finish registry request time s := by
  induction g with
  | nil => rfl
  | cons c g ih =>
    have hc := hg c (List.mem_cons_self ..)
    have htail := ih fun d hd => hg d (List.mem_cons_of_mem c hd)
    rw [List.cons_append, finish, Registry.substitute_cons (reference_read?_of_isQuiet hc _),
      Symbols.render_cons _ (templateToken_read?_of_isQuiet hc _), ← finish, htail]
    rfl

/-- A quiet character that no reference goes on with keeps the texts on its two sides apart. -/
theorem finish_append_cons {c : Char} (hc : IsQuiet c) (hinner : ¬ Reference.IsInner c)
    (u s : Text) :
    t.finish registry request time (u ++ c :: s) =
      t.finish registry request time u ++ c :: t.finish registry request time s := by
  have hreference : reference.Seam Reference.Stands (c :: s) := by
    refine Reference.reference_seam ?_
    rintro _ ⟨⟩
    exact ⟨hinner, hc.2.1⟩
  have htoken (r : Text) : templateToken.Seam TemplateToken.Stands (c :: r) := by
    refine TemplateToken.templateToken_seam ?_
    rintro _ ⟨⟩
    exact ⟨fun hword => hinner (.inl hword), hc.2.2.2⟩
  rw [finish, Registry.substitute_append_of_seam hreference,
    Registry.substitute_cons (reference_read?_of_isQuiet hc _),
    Symbols.render_append_of_seam (htoken _),
    Symbols.render_cons _ (templateToken_read?_of_isQuiet hc _)]
  rfl

/-- Behind any text, both stages together write a placeholder as its value, unless a variable has
its name. -/
theorem finish_append_reserved {p : Placeholder} (h : registry.value? request.scope p.name = none)
    (hs : ∀ c ∈ s.head?, ¬ isWordChar c) (u : Text) :
    t.finish registry request time (u ++ (p.spelling ++ s)) =
      t.finish registry request time u
        ++ ((t.symbols time).value p ++ t.finish registry request time s) := by
  have htext : registry.textOf request.scope .query ⟨.bare, p.name⟩ = p.spelling := by
    rw [Registry.textOf_of_value?_eq_none .query h, p.spelling_eq_spell]
  rw [finish, p.substitute_append s registry request.scope .query u hs, htext,
    Symbols.render_append_of_seam (p.templateToken_seam _), Symbols.render_placeholder_append]
  rfl

/-- Behind a text that both stages copy, too. -/
theorem finish_append_placeholder {u : Text} (hu : IsVerbatim u) {p : Placeholder}
    (h : registry.value? request.scope p.name = none) (hs : ∀ c ∈ s.head?, ¬ isWordChar c) :
    t.finish registry request time (u ++ (p.spelling ++ s)) =
      u ++ ((t.symbols time).value p ++ t.finish registry request time s) := by
  rw [t.finish_append_reserved time h hs, t.finish_eq_self time hu]

end Target

end SeriesQuery
