import Mathlib.Data.List.Infix
import SeriesQuery.Text.Basic

/-!
# The first separator

A text is split where the separator first stands in it (`splitOnce?_eq_some_iff`), and not at all
exactly when the separator stands nowhere (`splitOnce?_eq_none_iff`).
-/

namespace SeriesQuery.Text

/-- The separator stands between the two texts, and nowhere before. -/
structure CutsAtFirst (sep s before rest : Text) : Prop where
  eq_append : s = before ++ sep ++ rest
  first : ∀ {before' rest'}, s = before' ++ sep ++ rest' → before.length ≤ before'.length

variable {sep s before rest : Text}

/-- A text can be cut at one first separator only. -/
theorem CutsAtFirst.unique {before' rest' : Text} (h : CutsAtFirst sep s before rest)
    (h' : CutsAtFirst sep s before' rest') : before' = before ∧ rest' = rest := by
  have hlength := le_antisymm (h.first h'.eq_append) (h'.first h.eq_append)
  have he := h.eq_append.symm.trans h'.eq_append
  rw [List.append_assoc, List.append_assoc] at he
  obtain ⟨rfl, hrest⟩ := List.append_inj he hlength
  exact ⟨rfl, (List.append_cancel_left hrest).symm⟩

/-- What is split off is cut at the first separator. -/
theorem cutsAtFirst_of_splitOnce? :
    ∀ {s before rest : Text}, splitOnce? sep s = some (before, rest) →
      CutsAtFirst sep s before rest
  | [], before, rest, h => by
    have he := eq_of_splitOnce? h
    refine ⟨he, fun _ => ?_⟩
    rw [(List.append_eq_nil_iff.1 (List.append_eq_nil_iff.1 he.symm).1).1]
    exact Nat.zero_le _
  | c :: r, before, rest, h => by
    refine ⟨eq_of_splitOnce? h, fun {before' rest'} he => ?_⟩
    rw [splitOnce?] at h
    split at h
    · cases h
      exact Nat.zero_le _
    · next hnone =>
      obtain ⟨⟨b, t⟩, hr, hb⟩ := Option.map_eq_some_iff.1 h
      cases hb
      cases before' with
      | nil =>
        rw [after?_eq_some_iff.2 (show c :: r = sep ++ rest' from he)] at hnone
        cases hnone
      | cons d before' =>
        obtain ⟨rfl, htail⟩ := List.cons.inj he
        exact Nat.succ_le_succ ((cutsAtFirst_of_splitOnce? hr).first htail)

/-- A text in which the separator occurs is split. -/
theorem splitOnce?_ne_none : ∀ {before : Text}, splitOnce? sep (before ++ sep ++ rest) ≠ none
  | [] => by
    cases hs : sep ++ rest with
    | nil =>
      rw [List.nil_append, hs, splitOnce?, if_pos (List.append_eq_nil_iff.1 hs).1]
      exact Option.some_ne_none _
    | cons c r =>
      rw [List.nil_append, hs, splitOnce?, ← hs, after?_eq_some_iff.2 rfl]
      exact Option.some_ne_none _
  | c :: before => by
    rw [List.cons_append, List.cons_append, splitOnce?]
    split
    · exact Option.some_ne_none _
    · exact mt Option.map_eq_none_iff.1 splitOnce?_ne_none

/-- A text is split at its first separator. -/
theorem splitOnce?_eq_some_iff :
    splitOnce? sep s = some (before, rest) ↔ CutsAtFirst sep s before rest := by
  refine ⟨cutsAtFirst_of_splitOnce?, fun h => ?_⟩
  cases hs : splitOnce? sep s with
  | none => exact absurd hs (h.eq_append ▸ splitOnce?_ne_none)
  | some p =>
    obtain ⟨rfl, rfl⟩ := h.unique (cutsAtFirst_of_splitOnce? hs)
    rfl

/-- Only a text without the separator is not split. -/
theorem splitOnce?_eq_none_iff : splitOnce? sep s = none ↔ ¬ sep <:+: s := by
  constructor
  · rintro h ⟨before, rest, rfl⟩
    exact splitOnce?_ne_none h
  · intro h
    cases hs : splitOnce? sep s with
    | none => rfl
    | some p => exact absurd ⟨p.1, p.2, (eq_of_splitOnce? hs).symm⟩ h

/-- The first separator of a text stays the first one when the text goes on. -/
theorem CutsAtFirst.append (h : CutsAtFirst sep s before rest) (more : Text) :
    CutsAtFirst sep (s ++ more) before (rest ++ more) where
  eq_append := by rw [h.eq_append, List.append_assoc]
  first {before' rest'} he := by
    by_contra hlt
    have hlength : (before' ++ sep).length ≤ s.length := by
      rw [h.eq_append, List.length_append, List.length_append, List.length_append]
      omega
    -- An earlier separator would lie inside the text itself.
    obtain ⟨t, ht⟩ : before' ++ sep <+: s :=
      List.prefix_of_prefix_length_le ⟨rest', he.symm⟩ ⟨more, rfl⟩ hlength
    exact hlt (h.first ht.symm)

end SeriesQuery.Text
