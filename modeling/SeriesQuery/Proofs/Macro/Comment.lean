import Mathlib.Data.Bool.AllAny
import Mathlib.Data.List.Chain
import Mathlib.Data.List.TakeWhile
import SeriesQuery.Macro.Comment
import SeriesQuery.Proofs.Text.Blank

/-!
# Statements without their comments

A comment of a statement goes from `--` to the end of the line or from `/*` to the next `*/`; in a
literal between single quotes neither begins, and a backslash keeps a quote from ending it.
`Region.read` reads a statement as far as its first line comment: it keeps literals and code and
leaves a space for each block comment. `withoutComments` goes on behind the line of that comment.

The reader looks at a character and the one behind it. Only a few pairs mean something together
(`IsDigraph`), so a text without quotes that has no part in such a pair is read like any other of
its kind (`Region.read_append`). Of a text that the scanner takes for comments only, the reader
keeps nothing but blanks (`isAllBlank_withoutComments`).
-/

namespace SeriesQuery

open Text

/-- What a reader of a statement is in. -/
inductive Region
  | code
  | literal
  /-- A block comment. -/
  | comment
  deriving DecidableEq, Repr

/-- What two characters do that are read together. -/
inductive Move
  /-- A line comment begins. -/
  | lineComment
  /-- The text is kept in their place, and the region behind them is entered. -/
  | enter (kept : Text) (region : Region)
  deriving DecidableEq, Repr

/-- Two characters that some region reads together. -/
def IsDigraph (c d : Char) : Prop :=
  (c, d) ∈ [('-', '-'), ('/', '*'), ('*', '/'), ('\\', '\''), ('\\', '\\')]

instance (c d : Char) : Decidable (IsDigraph c d) := inferInstanceAs (Decidable (_ ∈ _))

/-- A text in which no two neighbours are read together. -/
def NoDigraph (s : Text) : Prop := s.IsChain fun c d => ¬ IsDigraph c d

instance (s : Text) : Decidable (NoDigraph s) := inferInstanceAs (Decidable (s.IsChain _))

/-- The characters that a digraph can consist of, and the quote. -/
def IsMark (c : Char) : Prop := c = '\'' ∨ c = '-' ∨ c = '/' ∨ c = '*' ∨ c = '\\'

instance (c : Char) : Decidable (IsMark c) := inferInstanceAs (Decidable (_ ∨ _))

/-- A text without such characters. -/
def NoMark (s : Text) : Prop := ∀ c ∈ s, ¬ IsMark c

instance (s : Text) : Decidable (NoMark s) :=
  decidable_of_iff (s.all fun c => ¬ IsMark c) List.all_iff_forall_prop

section
variable {c d : Char}

/-- Characters that are read together are marks. -/
theorem IsDigraph.isMark (h : IsDigraph c d) : IsMark c ∧ IsMark d := by
  simp only [IsDigraph, List.mem_cons, Prod.mk.injEq, List.not_mem_nil, or_false] at h
  rcases h with ⟨rfl, rfl⟩ | ⟨rfl, rfl⟩ | ⟨rfl, rfl⟩ | ⟨rfl, rfl⟩ | ⟨rfl, rfl⟩ <;>
    exact ⟨by decide, by decide⟩

/-- Characters that are no marks, at least one, make no digraph with those on their two sides. -/
theorem noDigraph_of_noMark {u : Text} (hne : u ≠ []) (hu : NoMark u)
    (before after : Option Char) : NoDigraph (before.toList ++ (u ++ after.toList)) := by
  have hleft {v : Text} (hv : NoMark v) : NoDigraph (v ++ after.toList) := by
    induction v with
    | nil => cases after <;> simp [NoDigraph]
    | cons c v ih =>
      refine List.isChain_cons.2 ⟨fun d _ hd => ?_, ih fun d hd => hv d (List.mem_cons_of_mem c hd)⟩
      exact hv c (List.mem_cons_self ..) hd.isMark.1
  cases before with
  | none => exact hleft hu
  | some b =>
    obtain ⟨c, u, rfl⟩ := List.exists_cons_of_ne_nil hne
    refine List.isChain_cons.2 ⟨?_, hleft hu⟩
    rintro _ ⟨⟩ hd
    exact hu c (List.mem_cons_self ..) hd.isMark.2

/-- Of the text behind another, the first character is enough to begin with. -/
theorem head?_append_head? (u s : Text) : (u ++ s.head?.toList).head? = (u ++ s).head? := by
  rw [List.head?_append, Option.head?_toList, List.head?_append]

/-- Of a text in front, the last character of its last part is enough. -/
theorem NoDigraph.of_getLast? {u v w : Text}
    (h : NoDigraph ((u ++ v).getLast?.toList ++ w)) : NoDigraph (v.getLast?.toList ++ w) := by
  rw [List.getLast?_append] at h
  cases hv : v.getLast? with
  | none => exact List.IsChain.right_of_append h
  | some c => rwa [hv] at h

end

namespace Region

/-- What two characters do together, if anything. -/
def pair : Region → Char → Char → Option Move
  | .code, '-', '-' => some .lineComment
  | .code, '/', '*' => some (.enter [' '] .comment)
  | .comment, '*', '/' => some (.enter [] .code)
  | .literal, '\\', '\'' => some (.enter ['\\', '\''] .literal)
  | .literal, '\\', '\\' => some (.enter ['\\', '\\'] .literal)
  | _, _, _ => none

/-- What is kept of a character by itself, and the region behind it. -/
def single : Region → Char → Text × Region
  | .comment, _ => ([], .comment)
  | .code, '\'' => (['\''], .literal)
  | .literal, '\'' => (['\''], .code)
  | g, c => ([c], g)

/-- What is kept of a text that the reader does not leave the region in. -/
def keep : Region → Text → Text
  | .comment, _ => []
  | _, s => s

/-- What is kept of a statement as far as its first line comment, and the text behind the marker of
that comment. -/
def read : Region → Text → Text × Option Text
  | _, [] => ([], none)
  | g, [c] => ((g.single c).1, none)
  | g, c :: d :: r =>
    match g.pair c d with
    | some .lineComment => ([], some r)
    | some (.enter kept g') => (g'.read r).map (kept ++ ·) id
    | none => ((g.single c).2.read (d :: r)).map ((g.single c).1 ++ ·) id

variable {g : Region} {c d : Char} {s : Text}

/-- The characters that a region reads together, and what they do there. -/
inductive Pairs : Region → Char → Char → Move → Prop
  | lineComment : Pairs .code '-' '-' .lineComment
  | blockComment : Pairs .code '/' '*' (.enter [' '] .comment)
  | commentEnd : Pairs .comment '*' '/' (.enter [] .code)
  | escapedQuote : Pairs .literal '\\' '\'' (.enter ['\\', '\''] .literal)
  | escapedBackslash : Pairs .literal '\\' '\\' (.enter ['\\', '\\'] .literal)

/-- What two characters do together in a region is among the pairs. -/
theorem pairs_of_pair {move : Move} (h : g.pair c d = some move) : Pairs g c d move := by
  unfold pair at h
  split at h <;> cases h <;> constructor

/-- Characters that do something together are a digraph. -/
theorem isDigraph_of_pair {move : Move} (h : g.pair c d = some move) : IsDigraph c d := by
  cases pairs_of_pair h <;> decide

/-- Characters that make no digraph are not read together. -/
theorem pair_eq_none (g : Region) (h : ¬ IsDigraph c d) : g.pair c d = none :=
  Option.eq_none_iff_forall_ne_some.2 fun _ he => h (isDigraph_of_pair he)

/-- In any region a character other than the quote leaves the region as it is. -/
theorem single_of_ne_quote (g : Region) (hc : c ≠ '\'') : g.single c = (g.keep [c], g) := by
  unfold single
  split
  · rfl
  · exact absurd rfl hc
  · exact absurd rfl hc
  · next hcomment _ _ =>
    cases g with
    | comment => exact (hcomment rfl).elim
    | code | literal => rfl

theorem keep_append (g : Region) (u s : Text) : g.keep (u ++ s) = g.keep u ++ g.keep s := by
  cases g <;> rfl

/-- A character that is not read together with the next one is read by itself. -/
theorem read_cons (h : ∀ d ∈ s.head?, g.pair c d = none) :
    g.read (c :: s) = ((g.single c).2.read s).map ((g.single c).1 ++ ·) id := by
  cases s with
  | nil => simp [read]
  | cons d s => rw [read, h d rfl]

/-- A line comment ends what is read. -/
theorem read_lineComment (h : g.pair c d = some .lineComment) (r : Text) :
    g.read (c :: d :: r) = ([], some r) := by
  rw [read, h]

/-- Behind two characters that enter a region, reading goes on in that region. -/
theorem read_enter {kept : Text} {g' : Region} (h : g.pair c d = some (.enter kept g')) (r : Text) :
    g.read (c :: d :: r) = (g'.read r).map (kept ++ ·) id := by
  rw [read, h]

/-- A text without quotes that has no part in a digraph is read in the region it stands in. -/
theorem read_append (g : Region) : ∀ {u : Text}, '\'' ∉ u → NoDigraph (u ++ s.head?.toList) →
    g.read (u ++ s) = (g.read s).map (g.keep u ++ ·) id
  | [], _, _ => by cases g <;> rfl
  | c :: u, hquote, h => by
    obtain ⟨hnext, hchain⟩ := List.isChain_cons.1 h
    have hc : c ≠ '\'' := fun he => hquote (he ▸ List.mem_cons_self ..)
    have hpair : ∀ d ∈ (u ++ s).head?, g.pair c d = none := by
      intro d hd
      rw [← head?_append_head?] at hd
      exact g.pair_eq_none (hnext d hd)
    have htail := read_append g (fun hmem => hquote (List.mem_cons_of_mem c hmem)) hchain
    have hkeep : g.keep (c :: u) = g.keep [c] ++ g.keep u := g.keep_append [c] u
    rw [List.cons_append, read_cons hpair, g.single_of_ne_quote hc, htail, hkeep]
    simp only [Prod.map, id_eq, List.append_assoc]

/-- A line comment begins at its marker. -/
theorem eq_append_of_read {kept after : Text} (h : g.read s = (kept, some after)) :
    ∃ before, s = before ++ '-' :: '-' :: after := by
  fun_induction read g s generalizing kept with
  | case1 => cases h
  | case2 => cases h
  | case3 g c d r hpair =>
    cases h
    cases pairs_of_pair hpair
    exact ⟨[], rfl⟩
  | case4 g c d r kept' g' hpair ih =>
    obtain ⟨-, hafter⟩ := Prod.mk.inj h
    obtain ⟨before, rfl⟩ := ih (Prod.ext rfl hafter)
    exact ⟨c :: d :: before, rfl⟩
  | case5 g c d r hpair ih =>
    obtain ⟨-, hafter⟩ := Prod.mk.inj h
    obtain ⟨before, hs⟩ := ih (Prod.ext rfl hafter)
    exact ⟨c :: before, by rw [hs, List.cons_append]⟩

/-- Outside block comments a character by itself is kept. -/
theorem single_of_ne_comment (hg : g ≠ .comment) (c : Char) :
    (g.single c).1 = [c] ∧ (g.single c).2 ≠ .comment := by
  unfold single
  split
  · exact absurd rfl hg
  · exact ⟨rfl, nofun⟩
  · exact ⟨rfl, nofun⟩
  · exact ⟨rfl, hg⟩

/-- What is kept in place of two characters outside block comments begins with a space or a
backslash. -/
theorem exists_kept_of_pair {kept : Text} {g' : Region} (hg : g ≠ .comment)
    (h : g.pair c d = some (.enter kept g')) : ∃ b k, kept = b :: k ∧ (b = ' ' ∨ b = '\\') := by
  cases pairs_of_pair h with
  | blockComment => exact ⟨_, _, rfl, .inl rfl⟩
  | commentEnd => exact absurd rfl hg
  | escapedQuote | escapedBackslash => exact ⟨_, _, rfl, .inr rfl⟩

/-- Outside block comments, what is kept begins like the text itself, as far as no space and no
backslash stands in it. -/
theorem prefix_of_prefix_read {w : Text} (hg : g ≠ .comment) (hw : ' ' ∉ w ∧ '\\' ∉ w)
    (h : w <+: (g.read s).1) : w <+: s := by
  have hsingle {g : Region} {c : Char} {w k r : Text} (hg : g ≠ .comment)
      (h : w <+: (g.single c).1 ++ k) (htail : ∀ w', w = c :: w' → w' <+: k → w' <+: r) :
      w <+: c :: r := by
    rw [(single_of_ne_comment hg c).1] at h
    cases w with
    | nil => exact List.nil_prefix
    | cons b w =>
      obtain ⟨rfl, hk⟩ := List.cons_prefix_cons.1 h
      exact List.cons_prefix_cons.2 ⟨rfl, htail w rfl hk⟩
  fun_induction read g s generalizing w with
  | case1 => exact h
  | case2 g c =>
    rw [← List.append_nil (g.single c).1] at h
    exact hsingle hg h fun _ _ hk => hk
  | case3 g c d r hpair =>
    rw [List.prefix_nil.1 h]
    exact List.nil_prefix
  | case4 g c d r kept g' hpair ih =>
    obtain ⟨b, k, rfl, hb⟩ := exists_kept_of_pair hg hpair
    cases w with
    | nil => exact List.nil_prefix
    | cons a w =>
      obtain ⟨rfl, -⟩ := List.cons_prefix_cons.1 h
      rcases hb with rfl | rfl
      · exact absurd (List.mem_cons_self ..) hw.1
      · exact absurd (List.mem_cons_self ..) hw.2
  | case5 g c d r hpair ih =>
    refine hsingle hg h ?_
    rintro w rfl hk
    exact ih (single_of_ne_comment hg c).2 ⟨fun hmem => hw.1 (List.mem_cons_of_mem c hmem),
      fun hmem => hw.2 (List.mem_cons_of_mem c hmem)⟩ hk

end Region

/-- The text from the line feed on that ends the line. -/
def nextLine (s : Text) : Text := s.dropWhile (· ≠ '\n')

/-- There is no next line to a single line. -/
theorem nextLine_eq_nil {s : Text} (h : '\n' ∉ s) : nextLine s = [] := by
  refine List.dropWhile_eq_nil_iff.2 fun c hc => decide_eq_true ?_
  rintro rfl
  exact h hc

/-- A statement with a space for each of its comments. -/
def withoutComments (s : Text) : Text :=
  match _hread : Region.code.read s with
  | (code, none) => code
  | (code, some after) => code ++ ' ' :: withoutComments (nextLine after)
termination_by s.length
decreasing_by
  obtain ⟨before, rfl⟩ := Region.eq_append_of_read _hread
  have hlength : (nextLine after).length ≤ after.length :=
    (List.dropWhile_suffix _).length_le
  simp only [List.length_append, List.length_cons]
  omega

section
variable {s code after : Text}

/-- Without a line comment, a statement is what is kept of it. -/
theorem withoutComments_of_none (h : Region.code.read s = (code, none)) :
    withoutComments s = code := by
  rw [withoutComments]
  split <;> simp_all

/-- Behind a line comment a statement goes on with the next line. -/
theorem withoutComments_of_some (h : Region.code.read s = (code, some after)) :
    withoutComments s = code ++ ' ' :: withoutComments (nextLine after) := by
  rw [withoutComments]
  split <;> simp_all

/-- What is kept in front of a statement is kept in front of what is left of it. -/
theorem withoutComments_of_read {kept rest : Text}
    (h : Region.code.read s = (Region.code.read rest).map (kept ++ ·) id) :
    withoutComments s = kept ++ withoutComments rest := by
  cases hrest : Region.code.read rest with
  | mk code after? =>
    rw [hrest] at h
    cases after? with
    | none => rw [withoutComments_of_none h, withoutComments_of_none hrest]
    | some after =>
      rw [withoutComments_of_some h, withoutComments_of_some hrest, List.append_assoc]

end

/-! ## Texts of comments -/

namespace Macro.CommentState

variable {c : Char} {s : Text}

/-- A scan from the state takes the text for blanks and comments. -/
def Accepts (state : CommentState) (s : Text) : Prop :=
  (s.foldlM advance state).any isComplete

theorem accepts_cons {state : CommentState} :
    state.Accepts (c :: s) ↔ ∃ next, state.advance c = some next ∧ next.Accepts s := by
  rw [Accepts, List.foldlM_cons]
  cases state.advance c <;> simp [Accepts]

/-- A line comment ends with its line. -/
theorem accepts_nextLine (h : inLine.Accepts s) : between.Accepts (nextLine s) := by
  induction s with
  | nil => rfl
  | cons c s ih =>
    obtain ⟨next, hnext, hs⟩ := accepts_cons.1 h
    rw [advance] at hnext
    split at hnext
    · next hc =>
      cases hnext
      subst hc
      exact accepts_cons.2 ⟨between, rfl, hs⟩
    · next hc =>
      cases hnext
      rw [nextLine, List.dropWhile_cons_of_pos (by simpa using hc)]
      exact ih hs

/-- A character of a block comment is passed over unless the comment ends there. -/
theorem read_comment_cons (h : c = '*' → '/' ∉ s.head?) :
    Region.comment.read (c :: s) = Region.comment.read s := by
  have hpair : ∀ d ∈ s.head?, Region.comment.pair c d = none := by
    refine fun d hd => Option.eq_none_iff_forall_ne_some.2 fun move hmove => ?_
    cases Region.pairs_of_pair hmove
    exact h rfl hd
  rw [Region.read_cons hpair]
  rfl

/-- A block comment that is accepted has an end, and the reader finds it. -/
theorem exists_read_comment : ∀ s : Text,
    (inBlock.Accepts s → ∃ rest, Region.comment.read s = Region.code.read rest ∧
      rest.length ≤ s.length ∧ between.Accepts rest) ∧
    (afterStar.Accepts s → ∃ rest, Region.comment.read ('*' :: s) = Region.code.read rest ∧
      rest.length ≤ s.length ∧ between.Accepts rest)
  | [] => ⟨nofun, nofun⟩
  | c :: s => by
    obtain ⟨hblock, hstar⟩ := exists_read_comment s
    constructor
    · intro h
      obtain ⟨next, hnext, hs⟩ := accepts_cons.1 h
      rw [advance] at hnext
      split at hnext
      · next hc =>
        cases hnext
        obtain ⟨rest, hread, hlength, hrest⟩ := hstar hs
        exact ⟨rest, hc ▸ hread, Nat.le_succ_of_le hlength, hrest⟩
      · next hc =>
        cases hnext
        obtain ⟨rest, hread, hlength, hrest⟩ := hblock hs
        rw [read_comment_cons fun he => absurd he hc]
        exact ⟨rest, hread, Nat.le_succ_of_le hlength, hrest⟩
    · intro h
      obtain ⟨next, hnext, hs⟩ := accepts_cons.1 h
      rw [advance] at hnext
      split at hnext
      · next hc =>
        cases hnext
        subst hc
        refine ⟨s, ?_, Nat.le_succ s.length, hs⟩
        have hend : Region.comment.pair '*' '/' = some (.enter [] .code) := rfl
        rw [Region.read_enter hend]
        rfl
      · next hc =>
        have hpass : Region.comment.read ('*' :: c :: s) = Region.comment.read (c :: s) :=
          read_comment_cons fun _ hd => hc (Option.some.inj hd)
        rw [hpass]
        split at hnext
        · next hstar' =>
          cases hnext
          obtain ⟨rest, hread, hlength, hrest⟩ := hstar hs
          exact ⟨rest, hstar' ▸ hread, Nat.le_succ_of_le hlength, hrest⟩
        · next hne =>
          cases hnext
          obtain ⟨rest, hread, hlength, hrest⟩ := hblock hs
          rw [read_comment_cons fun he => absurd he hne]
          exact ⟨rest, hread, Nat.le_succ_of_le hlength, hrest⟩

/-- A blank is kept of itself. -/
theorem withoutComments_blank_cons (hc : isBlank c) (s : Text) :
    withoutComments (c :: s) = c :: withoutComments s := by
  have hmark : NoMark [c] := by
    rintro d hd (rfl | rfl | rfl | rfl | rfl)
    all_goals
      obtain rfl := List.mem_singleton.1 hd
      exact absurd hc (by decide)
  have hquote : '\'' ∉ [c] := fun hmem => hmark _ hmem (by decide)
  have hchain := noDigraph_of_noMark (List.cons_ne_nil c []) hmark none s.head?
  exact withoutComments_of_read (Region.code.read_append hquote hchain)

/-- A hyphen is accepted with a second one behind it only. -/
theorem exists_of_afterDash (h : afterDash.Accepts s) :
    ∃ r, s = '-' :: r ∧ inLine.Accepts r := by
  cases s with
  | nil => cases h
  | cons d r =>
    obtain ⟨next, hnext, hr⟩ := accepts_cons.1 h
    rw [advance] at hnext
    split at hnext
    · next hd =>
      cases hnext
      exact ⟨r, hd ▸ rfl, hr⟩
    · cases hnext

/-- A slash is accepted with a star behind it only. -/
theorem exists_of_afterSlash (h : afterSlash.Accepts s) :
    ∃ r, s = '*' :: r ∧ inBlock.Accepts r := by
  cases s with
  | nil => cases h
  | cons d r =>
    obtain ⟨next, hnext, hr⟩ := accepts_cons.1 h
    rw [advance] at hnext
    split at hnext
    · next hd =>
      cases hnext
      exact ⟨r, hd ▸ rfl, hr⟩
    · cases hnext

/-- Between comments stands a blank, or a comment begins. -/
theorem cases_of_between (h : between.Accepts (c :: s)) :
    (isBlank c ∧ between.Accepts s) ∨ (∃ r, c :: s = '-' :: '-' :: r ∧ inLine.Accepts r) ∨
      ∃ r, c :: s = '/' :: '*' :: r ∧ inBlock.Accepts r := by
  obtain ⟨next, hnext, hs⟩ := accepts_cons.1 h
  rw [advance] at hnext
  split at hnext
  · next hc =>
    cases hnext
    exact .inl ⟨hc, hs⟩
  · split at hnext
    · next hc =>
      cases hnext
      obtain ⟨r, rfl, hr⟩ := exists_of_afterDash hs
      exact .inr (.inl ⟨r, hc ▸ rfl, hr⟩)
    · split at hnext
      · next hc =>
        cases hnext
        obtain ⟨r, rfl, hr⟩ := exists_of_afterSlash hs
        exact .inr (.inr ⟨r, hc ▸ rfl, hr⟩)
      · cases hnext

/-- Nothing but blanks is kept of a text that is accepted. -/
theorem isAllBlank_of_accepts (h : between.Accepts s) : isAllBlank (withoutComments s) := by
  have hspace (s : Text) (hs : isAllBlank s) : isAllBlank (' ' :: s) := hs
  induction hn : s.length using Nat.strongRecOn generalizing s with
  | ind n ih =>
    cases s with
    | nil =>
      rw [withoutComments_of_none rfl]
      rfl
    | cons c s =>
      rcases cases_of_between h with ⟨hc, hs⟩ | ⟨r, he, hr⟩ | ⟨r, he, hr⟩
      · have hlength : s.length < n := hn ▸ Nat.lt_succ_self s.length
        rw [withoutComments_blank_cons hc]
        exact Bool.and_eq_true_iff.2 ⟨hc, ih _ hlength hs rfl⟩
      · have hnext : (nextLine r).length ≤ r.length := (List.dropWhile_suffix _).length_le
        rw [he, List.length_cons, List.length_cons] at hn
        rw [he, withoutComments_of_some (Region.read_lineComment rfl r)]
        exact hspace _ (ih _ (by omega) (accepts_nextLine hr) rfl)
      · obtain ⟨rest, hread, hlength, hrest⟩ := (exists_read_comment r).1 hr
        have hopen : Region.code.pair '/' '*' = some (.enter [' '] .comment) := rfl
        have hblock : Region.code.read ('/' :: '*' :: r) =
            (Region.code.read rest).map ([' '] ++ ·) id := by
          rw [Region.read_enter hopen, hread]
        rw [he, List.length_cons, List.length_cons] at hn
        rw [he, withoutComments_of_read hblock]
        exact hspace _ (ih _ (by omega) hrest rfl)

end Macro.CommentState

/-- Of a text that the scanner takes for comments only, nothing but blanks is left. -/
theorem isAllBlank_withoutComments {s : Text} (h : Macro.isOnlyComments s) :
    isAllBlank (withoutComments s) :=
  Macro.CommentState.isAllBlank_of_accepts h

end SeriesQuery
