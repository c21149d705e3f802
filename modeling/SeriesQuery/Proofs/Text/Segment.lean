import Mathlib.Data.List.Forall2
import Mathlib.Logic.ExistsUnique
import SeriesQuery.Text.Segment

/-!
# The one way to cut a text

`Cuts` says what a division of a text into tokens and plain characters has to be: it spells the
text, each token may stand where it stands, and no token is spelled by plain characters side by
side. It does not say how a reader finds the tokens. When the tokens of a rule keep apart from each
other (`KeepsApart`), the segments of a text are such a division (`cuts_segments`) and every such
division is the segments (`Cuts.eq_segments`), so the text alone decides where its tokens are.

`segments_append` cuts a text piece by piece: a piece in which no token begins is plain. Where no
token reaches over the place between two pieces (`Seam`), each is cut on its own.
-/

namespace SeriesQuery

namespace Segment

variable {τ : Type}

/-- Plain characters stand for themselves. -/
theorem fill_map_plain (value : τ → Text) : ∀ s : Text, fill value (s.map .plain) = s
  | [] => rfl
  | c :: s => by rw [List.map_cons, fill_cons_plain, fill_map_plain value s]

/-- Only the values of the tokens that occur matter. -/
theorem fill_congr {value value' : τ → Text} :
    ∀ {segments : List (Segment τ)}, (∀ t, .token t ∈ segments → value t = value' t) →
      fill value segments = fill value' segments
  | [], _ => rfl
  | .plain c :: segments, h => by
    rw [fill_cons_plain, fill_cons_plain,
      fill_congr fun t ht => h t (List.mem_cons_of_mem _ ht)]
  | .token t :: segments, h => by
    rw [fill_cons_token, fill_cons_token, h t (List.mem_cons_self ..),
      fill_congr fun t' ht => h t' (List.mem_cons_of_mem _ ht)]

/-- What one segment is filled as. -/
def piece (value : τ → Text) : Segment τ → Text
  | .plain c => [c]
  | .token t => value t

/-- Segments are filled one after the other. -/
theorem fill_eq_flatten (value : τ → Text) : ∀ segments : List (Segment τ),
    fill value segments = (segments.map (piece value)).flatten
  | [] => rfl
  | .plain c :: segments => by
    rw [fill_cons_plain, fill_eq_flatten value segments]
    rfl
  | .token t :: segments => by
    rw [fill_cons_token, fill_eq_flatten value segments]
    rfl

/-- A relation between segments and their images relates a list of segments to its image. -/
theorem forall₂_map {β : Type} {Writes : Segment τ → β → Prop} {image : Segment τ → β}
    (h : ∀ segment, Writes segment (image segment)) (segments : List (Segment τ)) :
    List.Forall₂ Writes segments (segments.map image) :=
  List.forall₂_map_right_iff.2 (List.forall₂_same.2 fun x _ => h x)

end Segment

namespace TokenRule

variable {τ : Type} {rule : TokenRule τ} {text : Text}

/-! ## Segments of a text in two parts -/

/-- The segments behind any cut are those of the text they spell. -/
theorem segments_print_of_append {after : List (Segment τ)} :
    ∀ {before : List (Segment τ)} {s : Text}, rule.segments s = before ++ after →
      rule.segments (rule.print after) = after
  | [], s, h => by
    rw [List.nil_append] at h
    rw [← h, print_segments]
  | x :: before, [], h => nomatch h
  | x :: before, c :: s, h => by
    cases hread : rule.read? (c :: s) with
    | none =>
      rw [segments_of_read?_eq_none rule hread, List.cons_append, List.cons.injEq] at h
      exact segments_print_of_append h.2
    | some p =>
      rw [segments_of_read? rule hread, List.cons_append, List.cons.injEq] at h
      exact segments_print_of_append h.2

/-- A text in which no token begins is plain in front of any other. -/
theorem segments_append {s : Text} :
    ∀ {u : Text}, (∀ c v, c :: v <:+ u → rule.read? (c :: v ++ s) = none) →
      rule.segments (u ++ s) = u.map .plain ++ rule.segments s
  | [], _ => rfl
  | c :: u, h => by
    have hnone : rule.read? (c :: (u ++ s)) = none := h c u (List.suffix_refl _)
    rw [List.cons_append, segments_of_read?_eq_none rule hnone,
      segments_append fun d v hv => h d v (hv.trans (List.suffix_cons c u))]
    rfl

/-- A text that a token begins starts with that token. -/
theorem exists_segments_of_isSome (h : (rule.read? text).isSome) :
    ∃ t rest, rule.segments text = .token t :: rest := by
  obtain ⟨⟨t, r⟩, hread⟩ := Option.isSome_iff_exists.1 h
  exact ⟨t, rule.segments r, segments_of_read? rule hread⟩

/-! ## Divisions -/

/-- The segments are a division of a text into tokens and plain characters, where `Stands` says
which token may stand in front of which text. -/
structure Cuts (rule : TokenRule τ) (Stands : τ → Text → Prop) (text : Text)
    (segments : List (Segment τ)) : Prop where
  print_eq : rule.print segments = text
  stands : ∀ before t after, segments = before ++ .token t :: after →
    Stands t (rule.print after)
  /-- No token is left among the plain characters. -/
  noneLeft : ∀ before t rest after, Stands t rest →
    segments ≠ before ++ (rule.spell t).map .plain ++ after

/-- The reader of a rule finds the tokens that may stand where they stand, and these keep apart:
where one begins inside the spelling of another, a third is spelled before it. -/
structure KeepsApart (rule : TokenRule τ) (Stands : τ → Text → Prop) : Prop where
  read?_eq_some_iff : ∀ {s t rest}, rule.read? s = some (t, rest) ↔
    s = rule.spell t ++ rest ∧ Stands t rest
  isSome_read? : ∀ {t rest}, Stands t rest → ∀ s, (rule.read? (rule.spell t ++ s)).isSome
  overlap : ∀ {t t' rest rest' u v}, Stands t rest → Stands t' rest' →
    rule.spell t = u ++ v → u ≠ [] → v ≠ [] → v ++ rest = rule.spell t' ++ rest' →
    ∃ t'' rest'', Stands t'' rest'' ∧ rule.spell t'' <+: u

section
variable {Stands : τ → Text → Prop} {segments : List (Segment τ)}

/-- What stands behind the first segments of a division is a division itself. -/
theorem Cuts.drop (before : List (Segment τ)) {after : List (Segment τ)}
    (h : rule.Cuts Stands text (before ++ after)) :
    rule.Cuts Stands (rule.print after) after where
  print_eq := rfl
  stands front t back he := h.stands (before ++ front) t back (by rw [he, List.append_assoc])
  noneLeft front t rest back ht he := by
    refine h.noneLeft (before ++ front) t rest back ht ?_
    rw [he]
    simp only [List.append_assoc]

/-- The segments that spell a text in front of another are plain as far as that text goes, or a
token begins inside it. -/
theorem plain_or_token_of_print_eq {rest : Text} :
    ∀ {w : Text} {segments : List (Segment τ)}, rule.print segments = w ++ rest →
      (∃ after, segments = w.map .plain ++ after) ∨
      ∃ u v t after, w = u ++ v ∧ v ≠ [] ∧ segments = u.map .plain ++ .token t :: after ∧
        v ++ rest = rule.spell t ++ rule.print after
  | [], segments, _ => .inl ⟨segments, rfl⟩
  | d :: w, [], h => nomatch h
  | d :: w, .token t :: segments, h =>
    .inr ⟨[], d :: w, t, segments, rfl, List.cons_ne_nil d w, rfl, h.symm⟩
  | d :: w, .plain c :: segments, h => by
    rw [print, Segment.fill_cons_plain, List.cons_append, List.cons.injEq] at h
    obtain ⟨rfl, h⟩ := h
    rcases plain_or_token_of_print_eq h with ⟨after, rfl⟩ | ⟨u, v, t, after, rfl, hv, rfl, he⟩
    · exact .inl ⟨after, rfl⟩
    · exact .inr ⟨c :: u, v, t, after, rfl, hv, rfl, he⟩

/-- No token begins at a plain character of a division. -/
theorem Cuts.read?_eq_none (hrule : rule.KeepsApart Stands) {c : Char}
    (h : rule.Cuts Stands text (.plain c :: segments)) :
    rule.read? (c :: rule.print segments) = none := by
  cases hread : rule.read? (c :: rule.print segments) with
  | none => rfl
  | some p =>
    exfalso
    obtain ⟨t, rest⟩ := p
    obtain ⟨hspell, ht⟩ := hrule.read?_eq_some_iff.1 hread
    have hprint : rule.print (.plain c :: segments) = rule.spell t ++ rest := hspell
    rcases plain_or_token_of_print_eq hprint with ⟨after, he⟩ | ⟨u, v, t', after, hw, hv, he, hin⟩
    · exact h.noneLeft [] t rest after ht he
    · -- A second token begins inside the first, so a third one is spelled in front of it.
      have hu : u ≠ [] := by
        rintro rfl
        cases he
      have ht' : Stands t' (rule.print after) := h.stands _ t' after he
      obtain ⟨t'', rest'', ht'', w, rfl⟩ := hrule.overlap ht ht' hw hu hv hin
      refine h.noneLeft [] t'' rest'' (w.map .plain ++ .token t' :: after) ht'' ?_
      rw [he, List.map_append, List.nil_append, List.append_assoc]

/-- A text has one division at most. -/
theorem Cuts.eq_segments (hrule : rule.KeepsApart Stands) :
    ∀ {segments : List (Segment τ)} {text : Text}, rule.Cuts Stands text segments →
      segments = rule.segments text
  | [], _, h => by rw [← h.print_eq]; rfl
  | .plain c :: segments, _, h => by
    have hnone := h.read?_eq_none hrule
    have ih := (Cuts.drop [.plain c] h).eq_segments hrule
    rw [← h.print_eq, print, Segment.fill_cons_plain, ← print,
      segments_of_read?_eq_none rule hnone, ← ih]
  | .token t :: segments, _, h => by
    have hread : rule.read? (rule.spell t ++ rule.print segments) = some (t, rule.print segments) :=
      hrule.read?_eq_some_iff.2 ⟨rfl, h.stands [] t segments rfl⟩
    have ih := (Cuts.drop [.token t] h).eq_segments hrule
    rw [← h.print_eq, print, Segment.fill_cons_token, ← print, segments_of_read? rule hread, ← ih]

/-- The segments of a text are a division of it. -/
theorem cuts_segments (hrule : rule.KeepsApart Stands) (text : Text) :
    rule.Cuts Stands text (rule.segments text) where
  print_eq := rule.print_segments text
  stands before t after he := by
    have hsegments := segments_print_of_append he
    cases hs : rule.print (.token t :: after) with
    | nil =>
      rw [hs] at hsegments
      cases hsegments
    | cons c s =>
      rw [hs] at hsegments
      cases hread : rule.read? (c :: s) with
      | none =>
        rw [segments_of_read?_eq_none rule hread] at hsegments
        cases hsegments
      | some p =>
        obtain ⟨t', rest⟩ := p
        rw [segments_of_read? rule hread] at hsegments
        cases hsegments
        rw [print_segments]
        exact (hrule.read?_eq_some_iff.1 hread).2
  noneLeft before t rest after ht he := by
    rw [List.append_assoc] at he
    have hsegments := segments_print_of_append he
    have hread : rule.read? (rule.spell t ++ rest) = some (t, rest) :=
      hrule.read?_eq_some_iff.2 ⟨rfl, ht⟩
    obtain ⟨c, w, hspell⟩ := List.exists_cons_of_ne_nil (rule.spell_ne_nil hread)
    have hprint : rule.print ((rule.spell t).map .plain ++ after) =
        rule.spell t ++ rule.print after := by
      rw [print, Segment.fill_append, print, List.append_left_inj]
      exact Segment.fill_map_plain _ _
    obtain ⟨t', rest', htoken⟩ :=
      exists_segments_of_isSome (hrule.isSome_read? ht (rule.print after))
    rw [← hprint, hsegments, hspell] at htoken
    cases htoken

/-- A text has exactly one division, and that is its segments. -/
theorem existsUnique_cuts (hrule : rule.KeepsApart Stands) (text : Text) :
    ∃! segments, rule.Cuts Stands text segments :=
  ⟨rule.segments text, cuts_segments hrule text, fun _ h => h.eq_segments hrule⟩

end

/-! ## Seams -/

/-- A text makes a seam with whatever stands in front of it: no token reaches into it from there,
and a token may stand in front of it where it may stand at the end of a text. -/
structure Seam (rule : TokenRule τ) (Stands : τ → Text → Prop) (s : Text) : Prop where
  stands_append_iff : ∀ {t rest}, Stands t (rest ++ s) ↔ Stands t rest
  not_inside : ∀ {t rest u c v}, Stands t rest → rule.spell t = u ++ c :: v → u ≠ [] → c ∉ s.head?

section
variable {Stands : τ → Text → Prop} {s : Text}

/-- In front of a seam the reader finds what it finds at the end of a text. -/
theorem Seam.read?_append (hs : rule.Seam Stands s) (hrule : rule.KeepsApart Stands) {u : Text}
    (hu : u ≠ []) : rule.read? (u ++ s) = (rule.read? u).map fun p => (p.1, p.2 ++ s) := by
  cases hread : rule.read? u with
  | some p =>
    obtain ⟨t, rest⟩ := p
    obtain ⟨rfl, ht⟩ := hrule.read?_eq_some_iff.1 hread
    exact hrule.read?_eq_some_iff.2 ⟨List.append_assoc .., hs.stands_append_iff.2 ht⟩
  | none =>
    cases happ : rule.read? (u ++ s) with
    | none => rfl
    | some p =>
      exfalso
      obtain ⟨t, rest⟩ := p
      obtain ⟨he, ht⟩ := hrule.read?_eq_some_iff.1 happ
      -- A token in front of the seam ends there or before it, and so is read without the seam too.
      have hnone {rest' : Text} (hspell : u = rule.spell t ++ rest') (hrest : rest = rest' ++ s) :
          False := by
        subst hrest
        rw [hrule.read?_eq_some_iff.2 ⟨hspell, hs.stands_append_iff.1 ht⟩] at hread
        cases hread
      rcases List.append_eq_append_iff.1 he with ⟨v, hspell, hv⟩ | ⟨rest', hspell, hrest⟩
      · cases v with
        | nil =>
        have hu : u = rule.spell t ++ [] := by rw [hspell, List.append_nil, List.append_nil]
        exact hnone hu hv.symm
        | cons c v => exact hs.not_inside ht hspell hu (congrArg List.head? hv)
      · exact hnone hspell hrest

/-- The two sides of a seam are cut each on its own. -/
theorem Seam.segments_append (hs : rule.Seam Stands s) (hrule : rule.KeepsApart Stands) (u : Text) :
    rule.segments (u ++ s) = rule.segments u ++ rule.segments s := by
  induction h : u.length using Nat.strongRecOn generalizing u with
  | ind n ih =>
    cases u with
    | nil => rfl
    | cons c u =>
      have happ := hs.read?_append hrule (List.cons_ne_nil c u)
      cases hread : rule.read? (c :: u) with
      | none =>
        rw [hread, Option.map_none, List.cons_append] at happ
        rw [segments_of_read?_eq_none rule hread, List.cons_append,
          segments_of_read?_eq_none rule happ, ih u.length (by simp [← h]) u rfl, List.cons_append]
      | some p =>
        obtain ⟨t, rest⟩ := p
        rw [hread, Option.map_some] at happ
        have hlen : rest.length < n := h ▸ rule.length_lt_of_read? hread
        rw [segments_of_read? rule hread, segments_of_read? rule happ, ih _ hlen rest rfl,
          List.cons_append]

end

end TokenRule

end SeriesQuery
