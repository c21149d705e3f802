import SeriesQuery.Placeholder
import SeriesQuery.Proofs.Text.Segment
import SeriesQuery.Text.Word

/-!
# Rendering is one pass

The template alone fixes where its placeholders and line breaks are. A placeholder may stand
anywhere, and so may a line break, only that a carriage return in front of a line feed ends no line
of its own (`TemplateToken.Stands`). No placeholder begins inside another one, though their names
share beginnings, so these tokens keep apart (`templateToken_keepsApart`). Rendering writes the
tokens of that one division as values and spaces, copies everything else, and looks at nothing it
has written (`Symbols.render_division`).
-/

namespace SeriesQuery

open Text

/-! ## Tokens of a template -/

namespace Placeholder

/-- The name that a placeholder is written with. -/
def name (p : Placeholder) : Text := p.spelling.tail

/-- A placeholder is written with a dollar sign and its name. -/
theorem spelling_eq_cons (p : Placeholder) : p.spelling = '$' :: p.name := by cases p <;> rfl

theorem name_ne_nil (p : Placeholder) : p.name ≠ [] := by cases p <;> decide

/-- The name of a placeholder is a word. -/
theorem isWordChar_of_mem_name (p : Placeholder) : ∀ c ∈ p.name, isWordChar c :=
  List.all_eq_true.1 (by cases p <;> decide)

end Placeholder

namespace TemplateToken

variable {t : TemplateToken} {s rest : Text}

/-- The token can stand in front of the text: a carriage return is not cut off its line feed. -/
def Stands (t : TemplateToken) (rest : Text) : Prop :=
  t = .lineBreak .cr → rest.head? ≠ some '\n'

/-- The characters that a token starts with. -/
def IsOpening (c : Char) : Prop := c = '$' ∨ c = '\r' ∨ c = '\n'

/-- No token starts with a character of a word. -/
theorem IsOpening.not_isWordChar {c : Char} (h : IsOpening c) : ¬ isWordChar c := by
  rcases h with rfl | rfl | rfl <;> decide

/-- All tokens are in the list that is searched. -/
theorem mem_all (t : TemplateToken) : t ∈ all := by
  cases t with
  | placeholder p => cases p <;> decide
  | lineBreak b => cases b <;> decide

/-- A token starts with such a character, and only CR LF has another one. -/
theorem exists_spell_eq_cons (t : TemplateToken) :
    ∃ c w, t.spell = c :: w ∧ IsOpening c ∧ (t = .lineBreak .crlf ∨ ∀ d ∈ w, ¬ IsOpening d) := by
  cases t with
  | placeholder p =>
    exact ⟨'$', p.name, p.spelling_eq_cons, .inl rfl,
      .inr fun d hd hopen => hopen.not_isWordChar (p.isWordChar_of_mem_name d hd)⟩
  | lineBreak b =>
    cases b with
    | crlf => exact ⟨_, _, rfl, .inr (.inl rfl), .inl rfl⟩
    | cr => exact ⟨_, _, rfl, .inr (.inl rfl), .inr nofun⟩
    | lf => exact ⟨_, _, rfl, .inr (.inr rfl), .inr nofun⟩

/-- Where a token is spelled, the reader finds one. -/
theorem isSome_read? (t : TemplateToken) (s : Text) : (read? (t.spell ++ s)).isSome := by
  have hread : after? t.spell (t.spell ++ s) = some s := after?_eq_some_iff.2 rfl
  refine List.findSome?_isSome_iff.2 ⟨t, mem_all t, ?_⟩
  rw [hread]
  rfl

/-- No token's spelling begins with another's, except CR LF with CR. -/
theorem eq_of_spell_prefix {t t' : TemplateToken} (h : t.spell <+: t'.spell) :
    t = t' ∨ t = .lineBreak .cr ∧ t' = .lineBreak .crlf := by
  have hall : ∀ t ∈ all, ∀ t' ∈ all, t.spell <+: t'.spell →
      t = t' ∨ t = .lineBreak .cr ∧ t' = .lineBreak .crlf := by decide +kernel
  exact hall t (mem_all t) t' (mem_all t') h

/-- Of two tokens at the front of one text, the one that stands there is the longer. -/
theorem Stands.eq_of_prefix {t' : TemplateToken} {rest' : Text} (h : t.Stands rest)
    (he : t.spell ++ rest = t'.spell ++ rest') (hp : t.spell <+: t'.spell) : t = t' := by
  rcases eq_of_spell_prefix hp with rfl | ⟨rfl, rfl⟩
  · rfl
  · obtain ⟨-, hrest⟩ := List.cons.inj he
    exact absurd (show rest.head? = some '\n' from congrArg List.head? hrest) (h rfl)

/-- A carriage return with a line feed behind it is read as one line break. -/
theorem read?_crlf (s : Text) : read? ('\r' :: '\n' :: s) = some (.lineBreak .crlf, s) := rfl

/-- The reader finds the tokens that stand at the front of a text. -/
theorem read?_eq_some_iff : read? s = some (t, rest) ↔ s = t.spell ++ rest ∧ t.Stands rest := by
  have hsound {s : Text} {t : TemplateToken} {rest : Text} (h : read? s = some (t, rest)) :
      s = t.spell ++ rest ∧ t.Stands rest := by
    obtain ⟨u, -, hu⟩ := List.exists_of_findSome?_eq_some h
    obtain ⟨r, hr, he⟩ := Option.map_eq_some_iff.1 hu
    cases he
    refine ⟨after?_eq_some_iff.1 hr, ?_⟩
    rintro rfl hhead
    obtain ⟨rest, rfl⟩ : ∃ rest', rest = '\n' :: rest' := List.head?_eq_some_iff.1 hhead
    obtain rfl := after?_eq_some_iff.1 hr
    cases h.symm.trans (read?_crlf rest)
  refine ⟨hsound, ?_⟩
  rintro ⟨rfl, h⟩
  obtain ⟨⟨t', rest'⟩, hread⟩ := Option.isSome_iff_exists.1 (isSome_read? t rest)
  obtain ⟨he, h'⟩ := hsound hread
  obtain rfl : t = t' := by
    rcases List.prefix_or_prefix_of_prefix ⟨rest, rfl⟩ ⟨rest', he.symm⟩ with hp | hp
    · exact h.eq_of_prefix he hp
    · exact (h'.eq_of_prefix he.symm hp).symm
  rw [hread, List.append_cancel_left he]

/-- Tokens keep apart from each other. -/
theorem templateToken_keepsApart : templateToken.KeepsApart Stands where
  read?_eq_some_iff := read?_eq_some_iff
  isSome_read? {t _} _ := isSome_read? t
  overlap {t t' rest rest' u v} _ _ hspell hu hv he := by
    obtain ⟨c, w, hw, -, hinner⟩ := exists_spell_eq_cons t
    obtain ⟨c', w', hw', hc', -⟩ := exists_spell_eq_cons t'
    obtain ⟨b, u, rfl⟩ := List.exists_cons_of_ne_nil hu
    obtain ⟨d, v, rfl⟩ := List.exists_cons_of_ne_nil hv
    rw [show templateToken.spell t' = c' :: w' from hw'] at he
    obtain ⟨rfl, -⟩ := List.cons.inj he
    rw [show templateToken.spell t = c :: w from hw, List.cons_append, List.cons.injEq] at hspell
    obtain ⟨rfl, rfl⟩ := hspell
    rcases hinner with rfl | hinner
    · -- The line feed of CR LF begins a line break, but so does the carriage return before it.
      obtain ⟨rfl, -⟩ := List.cons.inj hw
      exact ⟨.lineBreak .cr, [], nofun, u, rfl⟩
    · exact absurd hc' (hinner d (List.mem_append_right u (List.mem_cons_self ..)))

/-- A text that starts with no character of a word and no line feed makes a seam. -/
theorem templateToken_seam {s : Text} (hs : ∀ c ∈ s.head?, ¬ isWordChar c ∧ c ≠ '\n') :
    templateToken.Seam Stands s where
  stands_append_iff {t rest} := by
    cases rest with
    | nil =>
      refine ⟨fun _ _ => nofun, fun _ _ he => ?_⟩
      exact (hs '\n' he).2 rfl
    | cons d rest => exact Iff.rfl
  not_inside {t _ u c v} _ hspell hu hc := by
    obtain ⟨b, u, rfl⟩ := List.exists_cons_of_ne_nil hu
    have hmem : c ∈ u ++ c :: v := List.mem_append_right u (List.mem_cons_self ..)
    cases t with
    | placeholder p =>
      obtain ⟨-, hname⟩ := List.cons.inj (p.spelling_eq_cons.symm.trans hspell)
      exact (hs c hc).1 (p.isWordChar_of_mem_name c (hname ▸ hmem))
    | lineBreak l =>
      -- Only CR LF has a second character.
      cases l with
      | crlf =>
        obtain ⟨-, htail⟩ := List.cons.inj (show '\r' :: ['\n'] = b :: (u ++ c :: v) from hspell)
        rw [← htail, List.mem_singleton] at hmem
        exact (hs c hc).2 hmem
      | cr =>
        obtain ⟨-, htail⟩ := List.cons.inj (show '\r' :: [] = b :: (u ++ c :: v) from hspell)
        rw [← htail] at hmem
        cases hmem
      | lf =>
        obtain ⟨-, htail⟩ := List.cons.inj (show '\n' :: [] = b :: (u ++ c :: v) from hspell)
        rw [← htail] at hmem
        cases hmem

end TemplateToken

/-! ## Rendering -/

namespace Symbols

/-- What rendering writes for a token. -/
def textOf (s : Symbols) : TemplateToken → Text
  | .placeholder p => s.value p
  | .lineBreak _ => [' ']

/-- Rendering fills the segments of a template with their texts. -/
theorem render_eq_fill (s : Symbols) (template : Text) :
    s.render template = Segment.fill s.textOf (templateToken.segments template) := by
  refine Segment.fill_congr fun t _ => ?_
  cases t <;> rfl

/-- What a segment of a template is written as: a plain character as it is, a placeholder as its
value, a line break as a space. -/
inductive Writes (s : Symbols) : Segment TemplateToken → Text → Prop
  | plain (c : Char) : Writes s (.plain c) [c]
  | placeholder (p : Placeholder) : Writes s (.token (.placeholder p)) (s.value p)
  | lineBreak (b : LineBreak) : Writes s (.token (.lineBreak b)) [' ']

/-- What two tables of values write for one segment: each its own value for a placeholder, and both
the same otherwise. -/
inductive WriteBoth (s s' : Symbols) : Segment TemplateToken → Text × Text → Prop
  | placeholder (p : Placeholder) :
      WriteBoth s s' (.token (.placeholder p)) (s.value p, s'.value p)
  | same {segment : Segment TemplateToken} {piece : Text} (h : s.Writes segment piece)
      (h' : s'.Writes segment piece) : WriteBoth s s' segment (piece, piece)

/-- A segment is written as its piece. -/
theorem writes_piece (s : Symbols) (segment : Segment TemplateToken) :
    s.Writes segment (segment.piece s.textOf) := by
  cases segment with
  | plain c => exact .plain c
  | token t =>
    cases t with
    | placeholder p => exact .placeholder p
    | lineBreak b => exact .lineBreak b

/-- Two tables of values write a segment as their pieces. -/
theorem writeBoth_piece (s s' : Symbols) (segment : Segment TemplateToken) :
    s.WriteBoth s' segment (segment.piece s.textOf, segment.piece s'.textOf) := by
  cases segment with
  | plain c => exact .same (.plain c) (.plain c)
  | token t =>
    cases t with
    | placeholder p => exact .placeholder p
    | lineBreak b => exact .same (.lineBreak b) (.lineBreak b)

/-- A template has exactly one division into placeholders, line breaks and plain characters,
whatever the values are, and rendering writes that division segment by segment. The renderings of
one template with two tables of values differ in what these write for its placeholders only. -/
theorem render_division (template : Text) :
    (∃! segments, templateToken.Cuts TemplateToken.Stands template segments) ∧
    ∀ segments, templateToken.Cuts TemplateToken.Stands template segments →
      (∀ s : Symbols, ∃ pieces, List.Forall₂ s.Writes segments pieces ∧
        s.render template = pieces.flatten) ∧
      ∀ s s' : Symbols, ∃ pairs, List.Forall₂ (s.WriteBoth s') segments pairs ∧
        s.render template = (pairs.map Prod.fst).flatten ∧
        s'.render template = (pairs.map Prod.snd).flatten := by
  refine ⟨TokenRule.existsUnique_cuts TemplateToken.templateToken_keepsApart template,
    fun segments hcuts => ?_⟩
  obtain rfl := hcuts.eq_segments TemplateToken.templateToken_keepsApart
  simp only [render_eq_fill, Segment.fill_eq_flatten]
  refine ⟨fun s => ⟨_, Segment.forall₂_map s.writes_piece _, rfl⟩,
    fun s s' => ⟨_, Segment.forall₂_map (s.writeBoth_piece s') _, ?_, ?_⟩⟩
  · rw [List.map_map]
    rfl
  · rw [List.map_map]
    rfl

/-- Values some of which look like placeholders. -/
def lookalikes : Symbols where
  time := ⟨1, 20, 3, true⟩
  table := "$from.$to".toList
  dateColumn := "$table".toList
  dateTimeColumn := "$time".toList

/-- A template with names that begin alike and line breaks of two kinds. -/
def crowdedTemplate : Text := "$$tox,$timeCol$table\r\n\n$timeColX $tim".toList

/-- Names that begin alike are told apart, and no value is rendered again. -/
theorem render_division_crowdedTemplate :
    ∃ segments, templateToken.Cuts TemplateToken.Stands crowdedTemplate segments ∧
      (∃ pieces, List.Forall₂ lookalikes.Writes segments pieces ∧
        pieces.flatten = "$20x,$table$from.$to  $tableX $tim".toList) ∧
      ∃ pairs, List.Forall₂ (lookalikes.WriteBoth { lookalikes with table := [] }) segments pairs ∧
        (pairs.map Prod.snd).flatten = "$20x,$table  $tableX $tim".toList := by
  obtain ⟨⟨segments, hcuts, -⟩, hall⟩ := render_division crowdedTemplate
  obtain ⟨hone, htwo⟩ := hall segments hcuts
  obtain ⟨pieces, hpieces, hrender⟩ := hone lookalikes
  obtain ⟨pairs, hpairs, -, hsnd⟩ := htwo lookalikes { lookalikes with table := [] }
  exact ⟨segments, hcuts, ⟨pieces, hpieces, hrender.symm.trans (by decide +kernel)⟩,
    pairs, hpairs, hsnd.symm.trans (by decide +kernel)⟩

end Symbols

end SeriesQuery
