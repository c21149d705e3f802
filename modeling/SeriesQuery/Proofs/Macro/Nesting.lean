import Mathlib.Data.Bool.AllAny
import SeriesQuery.Macro.Nesting
import SeriesQuery.Text.Literal
import SeriesQuery.Text.Word

/-!
# Texts that leave a scan where it is

Outside literals a scan moves at three characters only, the quote and the two parentheses. So a text
of other characters leaves it where it is (`scan_of_inert`), words among them, and so does a literal
as `quote` writes it, whatever text it stands for (`scan_quote`): the escaped inside never ends the
literal early. Both hold at every depth, and they carry over to texts that are joined (`scan_join`).
-/

namespace SeriesQuery

open Text

/-- A character that moves no scan outside literals. -/
def IsInert (c : Char) : Prop := c ≠ '\'' ∧ c ≠ '(' ∧ c ≠ ')'

instance (c : Char) : Decidable (IsInert c) := inferInstanceAs (Decidable (_ ∧ _))

/-- A text of such characters. -/
def AllInert (s : Text) : Prop := ∀ c ∈ s, IsInert c

instance (s : Text) : Decidable (AllInert s) :=
  decidable_of_iff (s.all fun c => IsInert c) List.all_iff_forall_prop

/-- A word character opens and closes nothing. -/
theorem isInert_of_isWordChar {c : Char} (h : isWordChar c) : IsInert c := by
  refine ⟨?_, ?_, ?_⟩
  all_goals
    rintro rfl
    exact absurd h (by decide)

namespace Nesting

/-- A state outside literals with nothing open is the outermost level. -/
theorem eq_top {n : Nesting} (hm : n.mode = .outside) (hd : n.depth = 0) : n = top := by
  obtain ⟨depth, mode⟩ := n
  cases hm
  cases hd
  rfl

/-- A scan of one more character takes one more step. -/
theorem scan_concat {n m k : Nesting} {s : Text} {c : Char} (hs : n.scan s = some m)
    (hc : m.advance c = some k) : n.scan (s ++ [c]) = some k := by
  rw [scan_append, hs, Option.bind_some, scan_cons, hc, Option.bind_some, scan_nil]

/-- A character that moves no scan. -/
theorem advance_of_inert {n : Nesting} {c : Char} (hn : n.mode = .outside) (hc : IsInert c) :
    n.advance c = some n := by
  obtain ⟨hq, ho, hcl⟩ := hc
  simp only [advance, hn, hq, ho, hcl, if_false]

/-- A text of such characters leaves a scan where it is. -/
theorem scan_of_inert {n : Nesting} (hn : n.mode = .outside) :
    ∀ {s : Text}, AllInert s → n.scan s = some n
  | [], _ => scan_nil n
  | c :: s, h => by
    rw [scan_cons, advance_of_inert hn (h c (List.mem_cons_self ..)), Option.bind_some]
    exact scan_of_inert hn fun d hd => h d (List.mem_cons_of_mem c hd)

/-- The inside of a literal leaves a scan inside it. -/
theorem scan_escape {n : Nesting} (hn : n.mode = .inside) :
    ∀ s : Text, n.scan (escape s) = some n
  | [] => scan_nil n
  | c :: s => by
    have ih := scan_escape hn s
    rw [escape_cons, scan_append]
    suffices h : n.scan (if c = '\\' ∨ c = '\'' then ['\\', c] else [c]) = some n by
      rw [h, Option.bind_some, ih]
    obtain ⟨depth, mode⟩ := n
    cases hn
    split
    · -- The backslash takes the scan aside, and any character brings it back.
      rfl
    · next h =>
      obtain ⟨hb, hq⟩ := not_or.1 h
      simp only [scan_cons, advance, hb, hq, if_false, Option.bind_some, scan_nil]

/-- A scan that has begun on the inside of a literal has not left the literal. -/
theorem mode_ne_outside_of_escape {n : Nesting} (hn : n.mode = .inside) :
    ∀ {s before after : Text} {m : Nesting}, escape s = before ++ after →
      n.scan before = some m → m.mode ≠ .outside
  | _, [], _, m, _, hm => by
    cases hm
    rw [hn]
    exact nofun
  | [], _ :: _, _, _, h, _ => nomatch h
  | c :: s, d :: before, after, m, h, hm => by
    obtain ⟨depth, mode⟩ := n
    cases hn
    rw [escape_cons] at h
    split at h
    · -- The backslash stands at the front, with its character behind it or cut off.
      simp only [List.cons_append, List.nil_append, List.cons.injEq] at h
      obtain ⟨rfl, h⟩ := h
      cases before with
      | nil =>
        cases hm
        exact nofun
      | cons e before =>
        rw [List.cons_append, List.cons.injEq] at h
        exact mode_ne_outside_of_escape rfl h.2 hm
    · next hc =>
      obtain ⟨hb, hq⟩ := not_or.1 hc
      rw [List.singleton_append, List.cons_append, List.cons.injEq] at h
      obtain ⟨rfl, h⟩ := h
      refine mode_ne_outside_of_escape (n := ⟨depth, .inside⟩) rfl h ?_
      simpa only [scan_cons, advance, hb, hq, if_false, Option.bind_some] using hm

/-- A literal leaves a scan where it is. -/
theorem scan_quote {n : Nesting} (hn : n.mode = .outside) (s : Text) :
    n.scan (quote s) = some n := by
  obtain ⟨depth, mode⟩ := n
  cases hn
  have hopen : advance ⟨depth, .outside⟩ '\'' = some ⟨depth, .inside⟩ := rfl
  have hclose : advance ⟨depth, .inside⟩ '\'' = some ⟨depth, .outside⟩ := rfl
  rw [quote, scan_cons, hopen, Option.bind_some, scan_append, scan_escape rfl, Option.bind_some,
    scan_cons, hclose, Option.bind_some, scan_nil]

/-- Texts that leave a scan where it is do so when a text that does joins them. -/
theorem scan_join {n : Nesting} {sep : Text} (hsep : n.scan sep = some n) :
    ∀ {parts : List Text}, (∀ p ∈ parts, n.scan p = some n) → n.scan (join sep parts) = some n
  | [], _ => scan_nil n
  | [p], h => by
    rw [join_singleton]
    exact h p (List.mem_cons_self ..)
  | p :: q :: parts, h => by
    have hp := h p (List.mem_cons_self ..)
    have ih := scan_join hsep fun r hr => h r (List.mem_cons_of_mem p hr)
    rw [join, List.intercalate_cons_of_ne_nil (List.cons_ne_nil q parts), scan_append, scan_append,
      hp, Option.bind_some, hsep, Option.bind_some]
    exact ih

end Nesting

end SeriesQuery
