import SeriesQuery.Proofs.Compile.OneLine
import SeriesQuery.Proofs.Compile.Verbatim
import SeriesQuery.Proofs.Macro.Comment

/-!
# Comments and rendering

A rendering has no line breaks, so the first line comment of a template takes everything behind it
with it. As far as that comment, rendering and reading commute (`Symbols.read_render`) for values
that have no part in quotes and markers (`Symbols.Fits`). So it does not matter whether a template
is rendered first or relieved of its comments first, exactly if no more than blanks are left of the
lines behind that of its first line comment (`Symbols.render_comments`).
-/

namespace SeriesQuery

open Text

namespace TemplateToken

variable {token : TemplateToken} {c : Char} {r x : Text}

/-- No quote and no character of a marker stands in a token. -/
theorem noMark_spell (token : TemplateToken) : NoMark token.spell := by
  cases token with
  | placeholder p => cases p <;> decide
  | lineBreak b => cases b <;> decide

theorem spell_ne_nil (token : TemplateToken) : token.spell ≠ [] := by
  obtain ⟨c, w, hspell, -, -⟩ := token.exists_spell_eq_cons
  rw [hspell]
  exact List.cons_ne_nil c w

/-- The text begins with no word and no line feed that the other does not begin with. -/
def BeginsLike (x r : Text) : Prop :=
  ∀ w : Text, (∀ c ∈ w, isWordChar c ∨ c = '\n') → w <+: x → w <+: r

/-- A token that can stand in front of a text can stand in front of one that begins like it. -/
theorem BeginsLike.stands (h : BeginsLike x r) (hr : token.Stands r) : token.Stands x := by
  intro ht hx
  obtain ⟨x, rfl⟩ := List.head?_eq_some_iff.1 hx
  obtain ⟨r, rfl⟩ := h ['\n'] (by simp) ⟨x, rfl⟩
  exact hr ht rfl

/-- No token begins at a character if none begins there in front of the other text. -/
theorem BeginsLike.read?_eq_none (h : BeginsLike x r)
    (hnone : templateToken.read? (c :: r) = none) : templateToken.read? (c :: x) = none := by
  have hnot (token : TemplateToken) (rest : Text) : c :: r ≠ token.spell ++ rest := by
    intro he
    have hread := token.isSome_read? rest
    rw [← he, show read? (c :: r) = none from hnone] at hread
    cases hread
  cases hread : templateToken.read? (c :: x) with
  | none => rfl
  | some found =>
    exfalso
    obtain ⟨token, rest⟩ := found
    obtain ⟨he, -⟩ := read?_eq_some_iff.1 hread
    cases token with
    | placeholder p =>
      obtain ⟨hc, hx⟩ := List.cons.inj (he.trans (congrArg (· ++ rest) p.spelling_eq_cons))
      obtain ⟨r, rfl⟩ := h p.name (fun d hd => .inl (p.isWordChar_of_mem_name d hd))
        ⟨rest, hx.symm⟩
      refine hnot (.placeholder p) r ?_
      rw [spell, p.spelling_eq_cons, hc, List.cons_append]
    | lineBreak b =>
      cases b with
      | crlf | cr =>
        obtain ⟨rfl, -⟩ := List.cons.inj he
        exact hnot (.lineBreak .cr) r rfl
      | lf =>
        obtain ⟨rfl, -⟩ := List.cons.inj he
        exact hnot (.lineBreak .lf) r rfl

/-- What a reader keeps outside block comments begins like the text. -/
theorem beginsLike_read {g : Region} (hg : g ≠ .comment) (r : Text) :
    BeginsLike (g.read r).1 r := by
  intro w hw h
  refine Region.prefix_of_prefix_read hg ⟨fun hmem => ?_, fun hmem => ?_⟩ h
  · exact absurd (hw _ hmem) (by decide)
  · exact absurd (hw _ hmem) (by decide)

end TemplateToken

namespace Symbols

variable {s : Symbols} {t : Text}

/-! ## Values without a part in comments -/

/-- What is written for the tokens has no part in quotes, line breaks and markers, neither by itself
nor together with the characters next to it. -/
structure Fits (s : Symbols) (segments : List (Segment TemplateToken)) : Prop where
  isLine : ∀ token, .token token ∈ segments → IsLine (s.textOf token)
  quote : ∀ token, .token token ∈ segments → '\'' ∉ s.textOf token
  noDigraph : ∀ before token after, segments = before ++ .token token :: after →
    NoDigraph ((Segment.fill s.textOf before).getLast?.toList
      ++ (s.textOf token ++ (Segment.fill s.textOf after).head?.toList))

variable {segments : List (Segment TemplateToken)} {x : Segment TemplateToken}

/-- What fits a template fits the rest of it behind a segment. -/
theorem Fits.tail (h : s.Fits (x :: segments)) : s.Fits segments where
  isLine token hmem := h.isLine token (List.mem_cons_of_mem x hmem)
  quote token hmem := h.quote token (List.mem_cons_of_mem x hmem)
  noDigraph before token after he := by
    have hall := h.noDigraph (x :: before) token after (by rw [he, List.cons_append])
    rw [Segment.fill_eq_flatten, List.map_cons, List.flatten_cons,
      ← Segment.fill_eq_flatten] at hall
    exact hall.of_getLast?

/-- Values that are not empty and hold no mark and no line break fit everywhere. -/
theorem fits_of_noMark (h : ∀ p, .token (.placeholder p) ∈ segments →
    s.value p ≠ [] ∧ IsLine (s.value p) ∧ NoMark (s.value p)) : s.Fits segments := by
  have hall (token : TemplateToken) (hmem : .token token ∈ segments) :
      s.textOf token ≠ [] ∧ IsLine (s.textOf token) ∧ NoMark (s.textOf token) := by
    cases token with
    | placeholder p => exact h p hmem
    | lineBreak b =>
      have hspace : IsLine [' '] ∧ NoMark [' '] := by decide
      exact ⟨List.cons_ne_nil _ _, hspace⟩
  refine ⟨fun token hmem => (hall token hmem).2.1, fun token hmem hquote => ?_, ?_⟩
  · exact (hall token hmem).2.2 _ hquote (by decide)
  · rintro before token after rfl
    obtain ⟨hne, -, hmark⟩ := hall token (List.mem_append_right _ (List.mem_cons_self ..))
    exact noDigraph_of_noMark hne hmark _ _

/-- Rendering makes no digraph with the character in front of a text. -/
theorem Fits.head?_of_isDigraph {c d : Char} {r : Text}
    (h : s.Fits (.plain c :: templateToken.segments r)) (hd : d ∈ (s.render r).head?)
    (hdigraph : IsDigraph c d) : d ∈ r.head? := by
  cases r with
  | nil => cases hd
  | cons e r =>
    cases hread : templateToken.read? (e :: r) with
    | none =>
      rw [s.render_cons hread] at hd
      exact hd
    | some found =>
      exfalso
      obtain ⟨token, rest⟩ := found
      rw [templateToken.segments_of_read? hread] at h
      have hchain := h.noDigraph [.plain c] token _ rfl
      obtain ⟨he, hstands⟩ := TemplateToken.read?_eq_some_iff.1 hread
      rw [he, s.render_token_append hstands, render_eq_fill, ← head?_append_head?] at hd
      exact (List.isChain_cons.1 hchain).1 d hd hdigraph

/-! ## Reading a rendering -/

/-- Marks and spaces, and so what is kept in place of a digraph, are quiet. -/
theorem isQuiet_of_isMark {c : Char} (h : IsMark c) : IsQuiet c := by
  rcases h with rfl | rfl | rfl | rfl | rfl <;> decide

/-- Where two characters enter a region, what is kept of them holds no part of a token. -/
theorem allQuiet_of_pair {g g' : Region} {c d : Char} {kept : Text}
    (h : g.pair c d = some (.enter kept g')) : AllQuiet kept := by
  cases Region.pairs_of_pair h <;> decide

/-- What is kept of a token and of the text behind it, rendered. -/
theorem keep_append_render {token : TemplateToken} {r : Text} (h : token.Stands r) (g : Region) :
    g.keep (s.textOf token) ++ s.render (g.read r).1 =
      s.render (g.keep token.spell ++ (g.read r).1) := by
  have hrender (hg : g ≠ .comment) :
      s.textOf token ++ s.render (g.read r).1 = s.render (token.spell ++ (g.read r).1) :=
    (s.render_token_append ((TemplateToken.beginsLike_read hg r).stands h)).symm
  cases g with
  | comment => rfl
  | code | literal => exact hrender nofun

/-- What is kept of a character that begins no token and of the text behind it, rendered. -/
theorem single_append_render {c : Char} {r : Text} (h : templateToken.read? (c :: r) = none)
    (g : Region) :
    (g.single c).1 ++ s.render ((g.single c).2.read r).1 =
      s.render ((g.single c).1 ++ ((g.single c).2.read r).1) := by
  by_cases hg : g = .comment
  · subst hg
    rfl
  · obtain ⟨hkept, hg'⟩ := Region.single_of_ne_comment hg c
    rw [hkept, List.singleton_append, List.singleton_append,
      s.render_cons ((TemplateToken.beginsLike_read hg' r).read?_eq_none h)]

/-- Reading a rendering is rendering what is read of the template. -/
theorem read_render (h : s.Fits (templateToken.segments t)) (g : Region) :
    g.read (s.render t) = (g.read t).map s.render (Option.map s.render) := by
  -- By length: a token is passed at once, and so are two characters that are read together.
  induction hn : t.length using Nat.strongRecOn generalizing t g with
  | ind n ih =>
    cases t with
    | nil => rfl
    | cons c r =>
      cases hread : templateToken.read? (c :: r) with
      | some found =>
        obtain ⟨token, rest⟩ := found
        obtain ⟨he, hstands⟩ := TemplateToken.read?_eq_some_iff.1 hread
        have hlength : rest.length < n := hn ▸ templateToken.length_lt_of_read? hread
        rw [templateToken.segments_of_read? hread] at h
        have hquote := h.quote token (List.mem_cons_self ..)
        have hvalue := h.noDigraph [] token _ rfl
        rw [← render_eq_fill] at hvalue
        have hmark := token.noMark_spell
        have hspell := noDigraph_of_noMark token.spell_ne_nil hmark none rest.head?
        rw [he, s.render_token_append hstands, g.read_append hquote hvalue,
          g.read_append (fun hmem => hmark _ hmem (by decide)) hspell, ih _ hlength h.tail g rfl]
        exact Prod.ext (keep_append_render hstands g) rfl
      | none =>
        rw [templateToken.segments_of_read?_eq_none hread] at h
        rw [s.render_cons hread]
        by_cases hpair : ∃ d r' move, r = d :: r' ∧ g.pair c d = some move
        · -- The two characters stand side by side in the rendering too, and are read together.
          obtain ⟨d, r', move, rfl, hpair⟩ := hpair
          have hquiet := isQuiet_of_isMark (Region.isDigraph_of_pair hpair).isMark.2
          have hd := templateToken_read?_of_isQuiet hquiet r'
          rw [s.render_cons hd]
          cases move with
          | lineComment =>
            rw [Region.read_lineComment hpair, Region.read_lineComment hpair]
            rfl
          | enter kept g' =>
            have hlength : r'.length < n := by
              simp only [List.length_cons] at hn
              omega
            rw [templateToken.segments_of_read?_eq_none hd] at h
            have hkept := (IsVerbatim.of_allQuiet (allQuiet_of_pair hpair)).render_append s
            rw [Region.read_enter hpair, Region.read_enter hpair, ih _ hlength h.tail.tail g' rfl]
            exact Prod.ext (hkept _).symm rfl
        · -- Nothing comes in front of the rest that would be read together with the character.
          have hsingle : ∀ d ∈ r.head?, g.pair c d = none := by
            intro d hd
            obtain ⟨r', rfl⟩ := List.head?_eq_some_iff.1 hd
            refine Option.eq_none_iff_forall_ne_some.2 fun move hmove => ?_
            exact hpair ⟨d, r', move, rfl, hmove⟩
          have hrendered : ∀ d ∈ (s.render r).head?, g.pair c d = none := by
            intro d hd
            refine Option.eq_none_iff_forall_ne_some.2 fun move hmove => ?_
            have hhead := h.head?_of_isDigraph hd (Region.isDigraph_of_pair hmove)
            rw [hsingle d hhead] at hmove
            cases hmove
          have hlength : r.length < n := hn ▸ Nat.lt_succ_self r.length
          rw [Region.read_cons hsingle, Region.read_cons hrendered, ih _ hlength h.tail _ rfl]
          exact Prod.ext (single_append_render hread g) rfl

/-! ## Removing comments -/

/-- A space keeps the texts on its two sides apart. -/
theorem render_append_space (s : Symbols) (u r : Text) :
    s.render (u ++ ' ' :: r) = s.render u ++ ' ' :: s.render r := by
  have hseam : templateToken.Seam TemplateToken.Stands (' ' :: r) := by
    refine TemplateToken.templateToken_seam ?_
    rintro _ ⟨⟩
    decide
  rw [render_append_of_seam hseam, s.render_cons (templateToken_read?_of_isQuiet (by decide) r)]

/-- For values that have no part in comments, a template without line comments can be relieved of
its comments before it is rendered or behind. A line comment takes what stands on the lines behind
it out of the rendering, so the two ways give the same up to blanks exactly if nothing else is left
of those lines. -/
theorem render_comments (h : s.Fits (templateToken.segments t)) :
    ((Region.code.read t).2 = none →
      withoutComments (s.render t) = s.render (withoutComments t)) ∧
    ∀ code after, Region.code.read t = (code, some after) →
      withoutComments (s.render t) = s.render code ++ [' '] ∧
      s.render (withoutComments t) =
        s.render code ++ ' ' :: s.render (withoutComments (nextLine after)) ∧
      (inked (withoutComments (s.render t)) = inked (s.render (withoutComments t)) ↔
        isAllBlank (s.render (withoutComments (nextLine after)))) := by
  have hread := read_render h .code
  constructor
  · intro hnone
    have hcode : Region.code.read t = ((Region.code.read t).1, none) := Prod.ext rfl hnone
    rw [hcode] at hread
    rw [withoutComments_of_none hread, withoutComments_of_none hcode]
  · intro code after hcode
    rw [hcode] at hread
    have hnext : nextLine (s.render after) = [] := by
      refine nextLine_eq_nil ?_
      obtain ⟨before, he⟩ := Region.eq_append_of_read hread
      have hline : IsLine (s.render t) := isLine_renderWith fun p hp => h.isLine _ hp
      rw [he, isLine_append, isLine_cons, isLine_cons] at hline
      exact hline.2.2.2.2
    have hrendered : withoutComments (s.render t) = s.render code ++ [' '] := by
      rw [withoutComments_of_some hread, hnext, withoutComments_of_none rfl]
    have hfirst := withoutComments_of_some hcode
    rw [hrendered, hfirst, render_append_space]
    refine ⟨rfl, rfl, ?_⟩
    have hblank : isBlank ' ' := by decide
    rw [inked_append, inked_append, List.append_right_inj, inked_cons_of_isBlank hblank,
      inked_cons_of_isBlank hblank, eq_comm]
    exact inked_eq_nil_iff

/-- The values for a table of requests. -/
def ofRequests : Symbols where
  time := ⟨1, 20, 3, true⟩
  table := "metrics.requests".toList
  dateColumn := "EventDate".toList
  dateTimeColumn := "EventTime".toList

/-- All its values but one fit everywhere. -/
theorem fits_ofRequests
    (h : .token (.placeholder .timeSeries) ∉ segments) : ofRequests.Fits segments := by
  refine fits_of_noMark fun p hp => ?_
  cases p with
  | timeSeries => exact absurd hp h
  | timeFilter => decide +kernel
  | dateTimeColumn => decide +kernel
  | dateColumn => decide +kernel
  | table => decide +kernel
  | lower => decide +kernel
  | upper => decide +kernel
  | interval => decide +kernel

/-- A template with markers in a literal, and comments of both kinds with placeholders in them. -/
def clutteredTemplate : Text :=
  "SELECT '--\\'/*', $to /* per\n$interval -- */ FROM $table WHERE $timeFilter -- $from\n".toList

/-- With markers in a literal and placeholders in comments, rendering changes nothing but the blanks
of the comments. -/
theorem render_comments_clutteredTemplate :
    withoutComments (ofRequests.render clutteredTemplate) =
      "SELECT '--\\'/*', 20   FROM ".toList
        ++ "metrics.requests WHERE EventDate >= toDate(1) AND EventTime >= toDateTime(1)  ".toList ∧
    inked (withoutComments (ofRequests.render clutteredTemplate)) =
      inked (ofRequests.render (withoutComments clutteredTemplate)) := by
  have hfits : ofRequests.Fits (templateToken.segments clutteredTemplate) :=
    fits_ofRequests (by decide +kernel)
  have hcode : Region.code.read clutteredTemplate =
      ("SELECT '--\\'/*', $to   FROM $table WHERE $timeFilter ".toList,
        some " $from\n".toList) := by decide +kernel
  obtain ⟨hleft, -, hiff⟩ := (render_comments hfits).2 _ _ hcode
  have hnext : withoutComments (nextLine " $from\n".toList) = ['\n'] :=
    withoutComments_of_none (by decide +kernel)
  refine ⟨hleft.trans (by decide +kernel), hiff.2 ?_⟩
  rw [hnext]
  decide +kernel

/-- A template with a comment to the end of its first line. -/
def twoLines : Text := "SELECT 1 -- one\nFROM t".toList

/-- On one line the comment takes the second one with it. -/
theorem render_comments_twoLines :
    ofRequests.Fits (templateToken.segments twoLines) ∧
    withoutComments (ofRequests.render twoLines) = "SELECT 1  ".toList ∧
    ofRequests.render (withoutComments twoLines) = "SELECT 1   FROM t".toList ∧
    inked (withoutComments (ofRequests.render twoLines)) ≠
      inked (ofRequests.render (withoutComments twoLines)) := by
  have hrendered : withoutComments (ofRequests.render twoLines) = "SELECT 1  ".toList := by
    have hcode : Region.code.read (ofRequests.render twoLines) =
        ("SELECT 1 ".toList, some " one FROM t".toList) := by decide +kernel
    have hnext : Region.code.read (nextLine " one FROM t".toList) = ([], none) := by decide
    rw [withoutComments_of_some hcode, withoutComments_of_none hnext]
    decide
  have hfirst : withoutComments twoLines = "SELECT 1  \nFROM t".toList := by
    have hcode : Region.code.read twoLines =
        ("SELECT 1 ".toList, some " one\nFROM t".toList) := by decide +kernel
    have hnext : Region.code.read (nextLine " one\nFROM t".toList) = ("\nFROM t".toList, none) := by
      decide +kernel
    rw [withoutComments_of_some hcode, withoutComments_of_none hnext]
    decide
  rw [hrendered, hfirst]
  exact ⟨fits_ofRequests (by decide +kernel), rfl, by decide +kernel, by decide +kernel⟩

/-- A value can form a marker with the character in front of it. -/
example : { ofRequests with time := ⟨-5, 20, 3, true⟩ }.render "1 -$from".toList =
    "1 --5".toList := by decide

end Symbols

end SeriesQuery
