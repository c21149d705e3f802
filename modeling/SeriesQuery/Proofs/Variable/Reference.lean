import SeriesQuery.Proofs.Text.Segment
import SeriesQuery.Proofs.Text.Word
import SeriesQuery.Variable.Reference

/-!
# Where references are

A reference stands in front of a text when its name is a word that the text does not go on
(`Reference.Stands`); only the bare form can be gone on with. The reader finds exactly the
references that stand at the front of a text (`read?_eq_some_iff`). No reference begins inside
another one, so they keep apart (`reference_keepsApart`) and a text has one division into references
and plain characters.
-/

namespace SeriesQuery

open Text

/-- A reference of the form can start with these two characters. -/
def ReferenceForm.Leads : ReferenceForm → Char → Char → Prop
  | bare, c, d => c = '$' ∧ isWordChar d
  | braced, c, d => c = '$' ∧ d = '\x7b'
  | bracketed, c, d => c = '[' ∧ d = '['

namespace Reference

/-- The reference can stand in front of the text: its name is a word, the longest there is. -/
structure Stands (r : Reference) (rest : Text) : Prop where
  name_ne_nil : r.name ≠ []
  isWordChar_of_mem : ∀ c ∈ r.name, isWordChar c
  maximal : r.form = .bare → ∀ c ∈ rest.head?, ¬ isWordChar c

variable {r : Reference} {s rest : Text}

theorem spell_bare (name : Text) : spell ⟨.bare, name⟩ = '$' :: name :=
  List.append_nil _

theorem spell_braced (name : Text) :
    spell ⟨.braced, name⟩ = '$' :: '\x7b' :: (name ++ ['\x7d']) := rfl

theorem spell_bracketed (name : Text) :
    spell ⟨.bracketed, name⟩ = '[' :: '[' :: (name ++ [']', ']']) := rfl

/-- The name of a reference ends before its closing and what follows. -/
theorem Stands.not_isWordChar_head (h : r.Stands rest) :
    ∀ c ∈ (r.form.closing ++ rest).head?, ¬ isWordChar c := by
  obtain ⟨form, name⟩ := r
  cases form with
  | bare => exact h.maximal rfl
  | braced | bracketed =>
    rintro _ ⟨⟩
    decide

/-- A reference of a form is read where it stands, with the longest name there is. -/
theorem readForm?_eq_some_iff {form : ReferenceForm} :
    readForm? form s = some (r, rest) ↔ s = r.spell ++ rest ∧ r.form = form ∧ r.Stands rest := by
  constructor
  · intro h
    refine ⟨(spell_append_of_readForm? h).symm, ?_⟩
    rw [readForm?] at h
    split at h
    · cases h
    · next u _ =>
      split at h
      · cases h
      · next hne =>
        obtain ⟨t, ht, he⟩ := Option.map_eq_some_iff.1 h
        cases he
        refine ⟨rfl, hne, fun c hc => isWordChar_of_mem_leadingWord hc, ?_⟩
        rintro rfl
        cases ht
        exact not_isWordChar_head_afterWord
  · rintro ⟨rfl, rfl, h⟩
    have hopening : after? r.form.opening (r.spell ++ rest) =
        some (r.name ++ (r.form.closing ++ rest)) :=
      after?_eq_some_iff.2 (by simp only [spell, List.append_assoc])
    have hword := leadingWord_append h.isWordChar_of_mem h.not_isWordChar_head
    have hafter := afterWord_append h.isWordChar_of_mem h.not_isWordChar_head
    have hclosing : after? r.form.closing (r.form.closing ++ rest) = some rest :=
      after?_eq_some_iff.2 rfl
    simp only [readForm?, hopening, hword, hafter, hclosing, if_neg h.name_ne_nil, Option.map_some]

/-! ## How references start -/

/-- A reference starts with two characters of its form. -/
theorem Stands.exists_leads (h : r.Stands rest) :
    ∃ c d t, r.spell = c :: d :: t ∧ r.form.Leads c d := by
  obtain ⟨form, name⟩ := r
  cases form with
  | bare =>
    obtain ⟨d, w, rfl⟩ := List.exists_cons_of_ne_nil h.name_ne_nil
    exact ⟨'$', d, _, rfl, rfl, h.isWordChar_of_mem d (List.mem_cons_self ..)⟩
  | braced | bracketed => exact ⟨_, _, _, rfl, rfl, rfl⟩

/-- References start with a dollar sign or two brackets. -/
theorem eq_of_leads {form : ReferenceForm} {c d : Char} (h : form.Leads c d) :
    c = '$' ∨ c = '[' ∧ d = '[' := by
  cases form with
  | bare | braced => exact .inl h.1
  | bracketed => exact .inr h

/-- How a reference starts tells its form. -/
theorem form_eq_of_leads {form form' : ReferenceForm} {c d : Char} (h : form.Leads c d)
    (h' : form'.Leads c d) : form = form' := by
  have hbrace : ¬ isWordChar '\x7b' := by decide
  cases form <;> cases form' <;> simp_all [ReferenceForm.Leads]

/-- The reader finds the references that stand at the front of a text. -/
theorem read?_eq_some_iff : read? s = some (r, rest) ↔ s = r.spell ++ rest ∧ r.Stands rest := by
  constructor
  · intro h
    obtain ⟨form, -, hform⟩ := List.exists_of_findSome?_eq_some h
    obtain ⟨hs, -, hr⟩ := readForm?_eq_some_iff.1 hform
    exact ⟨hs, hr⟩
  · rintro ⟨rfl, h⟩
    have hread := readForm?_eq_some_iff.2 ⟨rfl, rfl, h⟩
    -- Whatever form reads a reference off this text, it is the form of this one.
    have hform {form : ReferenceForm} {p : Reference × Text}
        (hp : readForm? form (r.spell ++ rest) = some p) : form = r.form := by
      obtain ⟨r', rest'⟩ := p
      obtain ⟨he, rfl, h'⟩ := readForm?_eq_some_iff.1 hp
      obtain ⟨c, d, t, hc, hl⟩ := h.exists_leads
      obtain ⟨c', d', t', hc', hl'⟩ := h'.exists_leads
      rw [hc, hc', List.cons_append, List.cons_append, List.cons_append, List.cons_append,
        List.cons.injEq, List.cons.injEq] at he
      obtain ⟨rfl, rfl, -⟩ := he
      exact form_eq_of_leads hl' hl
    cases hfound : read? (r.spell ++ rest) with
    | none =>
      have := List.findSome?_eq_none_iff.1 hfound r.form (by cases r.form <;> decide)
      rw [hread] at this
      cases this
    | some p =>
      obtain ⟨form, -, hp⟩ := List.exists_of_findSome?_eq_some hfound
      rw [hform hp, hread] at hp
      rw [hp]

/-! ## References keep apart -/

/-- The characters of a reference behind its first opening one. -/
def IsInner (c : Char) : Prop := isWordChar c ∨ c = '\x7b' ∨ c = '\x7d' ∨ c = ']'

instance (c : Char) : Decidable (IsInner c) := inferInstanceAs (Decidable (_ ∨ _))

/-- No reference begins at such a character. -/
theorem IsInner.not_leads {c d : Char} (hc : IsInner c) (form : ReferenceForm) :
    ¬ form.Leads c d := by
  have hne : c ≠ '$' ∧ c ≠ '[' := by
    rcases hc with hc | rfl | rfl | rfl
    · constructor <;> rintro rfl <;> exact absurd hc (by decide)
    all_goals decide
  intro h
  rcases eq_of_leads h with rfl | ⟨rfl, -⟩
  · exact hne.1 rfl
  · exact hne.2 rfl

/-- No reference begins inside another one. -/
theorem Stands.not_leads_inside {u v t : Text} {x y : Char} (h : r.Stands rest)
    (hspell : r.spell = u ++ v) (hu : u ≠ []) (hv : v ≠ []) (he : v ++ rest = x :: y :: t)
    (form : ReferenceForm) : ¬ form.Leads x y := by
  obtain ⟨refForm, name⟩ := r
  have hword : ∀ c ∈ name, IsInner c := fun c hc => .inl (h.isWordChar_of_mem c hc)
  obtain ⟨b, u, rfl⟩ := List.exists_cons_of_ne_nil hu
  obtain ⟨d, v, rfl⟩ := List.exists_cons_of_ne_nil hv
  obtain ⟨rfl, hrest⟩ := List.cons.inj he
  have hd : d ∈ u ++ d :: v := List.mem_append_right u (List.mem_cons_self ..)
  cases refForm with
  | bare =>
    rw [spell_bare, List.cons_append, List.cons.injEq] at hspell
    rw [← hspell.2] at hd
    exact (hword d hd).not_leads form
  | braced =>
    rw [spell_braced, List.cons_append, List.cons.injEq] at hspell
    rw [← hspell.2] at hd
    refine IsInner.not_leads ?_ form
    simp only [List.mem_cons, List.mem_append, List.not_mem_nil, or_false] at hd
    rcases hd with rfl | hd | rfl
    · exact .inr (.inl rfl)
    · exact hword d hd
    · exact .inr (.inr (.inl rfl))
  | bracketed =>
    rw [spell_bracketed, List.cons_append, List.cons.injEq] at hspell
    obtain ⟨-, hspell⟩ := hspell
    cases u with
    | nil =>
      -- The second bracket could begin a reference, but a name and no bracket stands behind it.
      obtain ⟨c, w, rfl⟩ := List.exists_cons_of_ne_nil h.name_ne_nil
      rw [List.nil_append, List.cons.injEq] at hspell
      obtain ⟨rfl, rfl⟩ := hspell
      obtain ⟨rfl, -⟩ := List.cons.inj hrest
      intro hl
      rcases eq_of_leads hl with hx | ⟨-, rfl⟩
      · exact absurd hx (by decide)
      · exact absurd (h.isWordChar_of_mem _ (List.mem_cons_self ..)) (by decide)
    | cons c u =>
      rw [List.cons_append, List.cons.injEq] at hspell
      replace hd : d ∈ u ++ d :: v := List.mem_append_right u (List.mem_cons_self ..)
      rw [← hspell.2] at hd
      refine IsInner.not_leads ?_ form
      simp only [List.mem_cons, List.mem_append, List.not_mem_nil, or_false, or_self] at hd
      rcases hd with hd | rfl
      · exact hword d hd
      · exact .inr (.inr (.inr rfl))

/-- References keep apart from each other. -/
theorem reference_keepsApart : reference.KeepsApart Stands where
  read?_eq_some_iff := read?_eq_some_iff
  isSome_read? {r rest} h s := by
    show (read? (r.spell ++ s)).isSome
    obtain ⟨form, name⟩ := r
    cases form with
    | bare =>
      -- The text behind can go on with the name; the longer reference is read then.
      have hlonger : Stands ⟨.bare, name ++ leadingWord s⟩ (afterWord s) := by
        refine ⟨?_, fun c hc => ?_, fun _ => not_isWordChar_head_afterWord⟩
        · exact List.append_ne_nil_of_left_ne_nil h.name_ne_nil _
        · rcases List.mem_append.1 hc with hc | hc
          · exact h.isWordChar_of_mem c hc
          · exact isWordChar_of_mem_leadingWord hc
      rw [read?_eq_some_iff.2 ⟨?_, hlonger⟩]
      · rfl
      · simp only [spell, ReferenceForm.closing, List.append_assoc, List.nil_append,
          leadingWord_append_afterWord]
    | braced | bracketed =>
      have hstands : Stands ⟨_, name⟩ s :=
        ⟨h.name_ne_nil, h.isWordChar_of_mem, fun he => ReferenceForm.noConfusion he⟩
      rw [read?_eq_some_iff.2 ⟨rfl, hstands⟩]
      rfl
  overlap {r r' rest rest' u v} h h' hspell hu hv he := by
    obtain ⟨c, d, t, hc, hl⟩ := h'.exists_leads
    rw [show reference.spell r' = c :: d :: t from hc] at he
    exact absurd hl (h.not_leads_inside hspell hu hv he r'.form)

/-! ## Seams between references -/

/-- Behind its first character a reference has inner characters and brackets only. -/
theorem Stands.isInner_or_bracket {u v : Text} {c : Char} (h : r.Stands rest)
    (hspell : r.spell = u ++ c :: v) (hu : u ≠ []) : IsInner c ∨ c = '[' := by
  obtain ⟨form, name⟩ := r
  obtain ⟨b, u, rfl⟩ := List.exists_cons_of_ne_nil hu
  have hword : ∀ c ∈ name, IsInner c := fun c hc => .inl (h.isWordChar_of_mem c hc)
  have hc : c ∈ u ++ c :: v := List.mem_append_right u (List.mem_cons_self ..)
  cases form with
  | bare =>
    rw [spell_bare, List.cons_append, List.cons.injEq] at hspell
    rw [← hspell.2] at hc
    exact .inl (hword c hc)
  | braced =>
    rw [spell_braced, List.cons_append, List.cons.injEq] at hspell
    rw [← hspell.2] at hc
    simp only [List.mem_cons, List.mem_append, List.not_mem_nil, or_false] at hc
    rcases hc with rfl | hc | rfl
    · exact .inl (.inr (.inl rfl))
    · exact .inl (hword c hc)
    · exact .inl (.inr (.inr (.inl rfl)))
  | bracketed =>
    rw [spell_bracketed, List.cons_append, List.cons.injEq] at hspell
    rw [← hspell.2] at hc
    simp only [List.mem_cons, List.mem_append, List.not_mem_nil, or_false, or_self] at hc
    rcases hc with rfl | hc | rfl
    · exact .inr rfl
    · exact .inl (hword c hc)
    · exact .inl (.inr (.inr (.inr rfl)))

/-- A text that starts with none of these characters makes a seam. -/
theorem reference_seam {s : Text} (hs : ∀ c ∈ s.head?, ¬ IsInner c ∧ c ≠ '[') :
    reference.Seam Stands s where
  stands_append_iff {r rest} := by
    have hmaximal : (∀ c ∈ (rest ++ s).head?, ¬ isWordChar c) ↔
        ∀ c ∈ rest.head?, ¬ isWordChar c := by
      cases rest with
      | nil => exact ⟨fun _ => nofun, fun _ c hc hword => (hs c hc).1 (.inl hword)⟩
      | cons d rest => exact Iff.rfl
    exact ⟨fun h => ⟨h.name_ne_nil, h.isWordChar_of_mem, fun hf => hmaximal.1 (h.maximal hf)⟩,
      fun h => ⟨h.name_ne_nil, h.isWordChar_of_mem, fun hf => hmaximal.2 (h.maximal hf)⟩⟩
  not_inside h hspell hu hc :=
    (h.isInner_or_bracket hspell hu).elim (hs _ hc).1 (hs _ hc).2

end Reference

end SeriesQuery
