import SeriesQuery.Duration
import SeriesQuery.Proofs.Text.Numeral

/-!
# The first duration of a text

A duration is looked for in any text. `findSpelled?_eq_some_iff` says what the search finds, the
first run of digits that a unit follows at once (`IsFirst`), and `exists_isLongest_of_atFront?` that
the unit is the longest one spelled there: the list of spellings is tried in order, and no spelling
stands behind one that it starts with (`pairwise_spellings`). `Outcome` has a case for each way
this can end, and `find_grammar` says that the text is read accordingly.
-/

namespace SeriesQuery

open Text

namespace DurationUnit

variable {s spelling : Text} {unit : DurationUnit}

/-- A unit is spelled at the front of a text. -/
def Leads (s : Text) : Prop := ∃ spelled ∈ spellings, spelled.1 <+: s

/-- The longest spelling that a text starts with, and its unit. -/
structure IsLongest (s spelling : Text) (unit : DurationUnit) : Prop where
  mem : (spelling, unit) ∈ spellings
  leads : spelling <+: s
  longest : ∀ other ∈ spellings, other.1 <+: s → other.1.length ≤ spelling.length

/-- No spelling stands behind one that it starts with. -/
theorem pairwise_spellings : spellings.Pairwise fun a b => ¬ a.1 <+: b.1 := by decide +kernel

/-- Each spelling has one unit. -/
theorem unit_eq_of_mem {unit' : DurationUnit} (h : (spelling, unit) ∈ spellings)
    (h' : (spelling, unit') ∈ spellings) : unit = unit' := by
  have hall : ∀ a ∈ spellings, ∀ b ∈ spellings, a.1 = b.1 → a.2 = b.2 := by decide +kernel
  exact hall _ h _ h' rfl

/-- A text starts with one longest spelling, of one unit. -/
theorem IsLongest.unique {spelling' : Text} {unit' : DurationUnit}
    (h : IsLongest s spelling unit) (h' : IsLongest s spelling' unit') :
    spelling = spelling' ∧ unit = unit' := by
  have hlength := le_antisymm (h'.longest _ h.mem h.leads) (h.longest _ h'.mem h'.leads)
  obtain rfl : spelling = spelling' :=
    (List.prefix_of_prefix_length_le h.leads h'.leads hlength.le).eq_of_length hlength
  exact ⟨rfl, unit_eq_of_mem h.mem h'.mem⟩

theorem atFront?_eq (s : Text) : atFront? s =
    spellings.findSome? fun spelled => (after? spelled.1 s).map fun _ => spelled.2 := rfl

/-- The first spelling in the list that a text starts with is the longest. -/
theorem exists_isLongest_of_atFront? (h : atFront? s = some unit) :
    ∃ spelling, IsLongest s spelling unit := by
  obtain ⟨before, ⟨spelling, unit'⟩, after, hlist, hfound, hbefore⟩ :=
    List.findSome?_eq_some_iff.1 ((atFront?_eq s).symm.trans h)
  obtain ⟨rest, hrest, rfl⟩ := Option.map_eq_some_iff.1 hfound
  have hleads : spelling <+: s := ⟨rest, (after?_eq_some_iff.1 hrest).symm⟩
  have hpairwise := pairwise_spellings
  rw [hlist, List.pairwise_append, List.pairwise_cons] at hpairwise
  refine ⟨spelling, ?_, hleads, ?_⟩
  · rw [hlist]
    exact List.mem_append_right before (List.mem_cons_self ..)
  · intro other hmem hother
    rw [hlist] at hmem
    rcases List.mem_append.1 hmem with hmem | hmem
    · obtain ⟨rest', hrest'⟩ := hother
      have hnone := hbefore other hmem
      rw [after?_eq_some_iff.2 hrest'.symm] at hnone
      cases hnone
    · rcases List.mem_cons.1 hmem with rfl | hmem
      · exact le_rfl
      · -- Of two spellings at one front, the one behind is the shorter.
        rcases List.prefix_or_prefix_of_prefix hleads hother with hprefix | hprefix
        · exact absurd hprefix (hpairwise.2.1.1 other hmem)
        · exact hprefix.length_le

/-- No unit is found exactly where none is spelled. -/
theorem atFront?_eq_none_iff : atFront? s = none ↔ ¬ Leads s := by
  rw [atFront?_eq, List.findSome?_eq_none_iff]
  constructor
  · rintro h ⟨spelled, hmem, rest, hrest⟩
    have hnone := h spelled hmem
    rw [after?_eq_some_iff.2 hrest.symm] at hnone
    cases hnone
  · intro h spelled hmem
    cases hafter : after? spelled.1 s with
    | none => rw [Option.map_none]
    | some rest =>
      exact absurd ⟨spelled, hmem, rest, (after?_eq_some_iff.1 hafter).symm⟩ h

/-- A unit that is found at the front of a text is spelled there. -/
theorem leads_of_atFront? (h : atFront? s = some unit) : Leads s := by
  by_contra hleads
  rw [atFront?_eq_none_iff.2 hleads] at h
  cases h

/-- Where a unit is spelled, there is a longest spelling. -/
theorem Leads.exists_isLongest (h : Leads s) : ∃ spelling unit, IsLongest s spelling unit := by
  cases hunit : atFront? s with
  | none => exact absurd h (atFront?_eq_none_iff.1 hunit)
  | some unit =>
    obtain ⟨spelling, hlongest⟩ := exists_isLongest_of_atFront? hunit
    exact ⟨spelling, unit, hlongest⟩

theorem ne_nil_of_mem_spellings (h : (spelling, unit) ∈ spellings) : spelling ≠ [] := by
  have hall : ∀ a ∈ spellings, a.1 ≠ [] := by decide +kernel
  exact hall _ h

/-- No spelling goes on a run of digits. -/
theorem not_isDecimalDigit_of_mem_spellings {c : Char} (h : (spelling, unit) ∈ spellings)
    (hc : spelling.head? = some c) : ¬ isDecimalDigit c := by
  have hall : ∀ a ∈ spellings, a.1.head?.all fun c => !isDecimalDigit c := by decide +kernel
  have hcheck := (Option.all_eq_true _ _).1 (hall _ h) c hc
  rwa [Bool.not_eq_true', ← Bool.not_eq_true] at hcheck

end DurationUnit

namespace Duration

/-! ## Runs of digits -/

/-- A run of digits in a text, which goes on to neither side. -/
structure IsRun (s before digits after : Text) : Prop where
  eq_append : s = before ++ (digits ++ after)
  ne_nil : digits ≠ []
  allDigits : ∀ c ∈ digits, isDecimalDigit c
  left : ∀ c ∈ before.getLast?, ¬ isDecimalDigit c
  right : ∀ c ∈ after.head?, ¬ isDecimalDigit c

/-- A run that a unit follows at once. -/
structure IsSpelled (s before digits after : Text) : Prop extends IsRun s before digits after where
  leads : DurationUnit.Leads after

/-- The first run that a unit follows at once. -/
structure IsFirst (s before digits after : Text) : Prop
    extends IsSpelled s before digits after where
  first : ∀ {before' digits' after'}, IsSpelled s before' digits' after' →
    before.length ≤ before'.length

variable {s r before digits after : Text} {c : Char}

/-- A run at the front is all the digits there. -/
theorem IsRun.eq_takeWhile (h : IsRun s [] digits after) :
    digits = s.takeWhile isDecimalDigit ∧ after = s.dropWhile isDecimalDigit := by
  rw [h.eq_append, List.nil_append, takeWhile_append_of_head h.allDigits h.right,
    dropWhile_append_of_head h.allDigits h.right]
  exact ⟨rfl, rfl⟩

/-- The digits at the front are a run. -/
theorem isRun_takeWhile (hc : isDecimalDigit c) :
    IsRun (c :: r) [] ((c :: r).takeWhile isDecimalDigit) ((c :: r).dropWhile isDecimalDigit) where
  eq_append := List.takeWhile_append_dropWhile.symm
  ne_nil := by
    rw [List.takeWhile_cons_of_pos hc]
    exact List.cons_ne_nil c _
  allDigits _ hd := List.mem_takeWhile_imp hd
  left := nofun
  right d hd := by
    have hnot := List.head?_dropWhile_not isDecimalDigit (c :: r)
    rw [hd] at hnot
    exact Bool.eq_false_iff.1 hnot

/-- A run that does not start a text is one of the text behind the first character. -/
theorem isRun_cons_iff : IsRun (c :: r) (c :: before) digits after ↔
    IsRun r before digits after ∧ (before = [] → ¬ isDecimalDigit c) := by
  have hlast (hne : before ≠ []) : (c :: before).getLast? = before.getLast? := by
    obtain ⟨d, before, rfl⟩ := List.exists_cons_of_ne_nil hne
    rw [List.getLast?_cons_cons]
  constructor
  · intro h
    refine ⟨⟨(List.cons.inj h.eq_append).2, h.ne_nil, h.allDigits, ?_, h.right⟩, ?_⟩
    · intro d hd
      refine h.left d ?_
      rwa [hlast]
      rintro rfl
      cases hd
    · rintro rfl
      exact h.left c rfl
  · rintro ⟨h, hc⟩
    refine ⟨congrArg (c :: ·) h.eq_append, h.ne_nil, h.allDigits, ?_, h.right⟩
    intro d hd
    by_cases hne : before = []
    · subst hne
      cases hd
      exact hc rfl
    · rw [hlast hne] at hd
      exact h.left d hd

/-- Behind one more character, a run that a unit follows is one of the text without it, unless that
character goes on the run to the left. -/
theorem isSpelled_cons_iff : IsSpelled (c :: r) (c :: before) digits after ↔
    IsSpelled r before digits after ∧ (before = [] → ¬ isDecimalDigit c) := by
  constructor
  · intro h
    obtain ⟨hrun, hc⟩ := isRun_cons_iff.1 h.toIsRun
    exact ⟨⟨hrun, h.leads⟩, hc⟩
  · rintro ⟨h, hc⟩
    exact ⟨isRun_cons_iff.2 ⟨h.toIsRun, hc⟩, h.leads⟩

/-- A run starts a text, or is one of the text behind the first character. -/
theorem IsSpelled.cases_cons (h : IsSpelled (c :: r) before digits after) :
    before = [] ∨ ∃ before', before = c :: before' ∧ IsSpelled r before' digits after ∧
      (before' = [] → ¬ isDecimalDigit c) := by
  cases before with
  | nil => exact .inl rfl
  | cons d before =>
    obtain ⟨rfl, -⟩ := List.cons.inj h.eq_append
    exact .inr ⟨before, rfl, isSpelled_cons_iff.1 h⟩

/-! ## The search -/

variable {inRun : Bool} {unit : DurationUnit}

/-- The unit behind the digits at the front, unless these go on a run to their left. -/
def frontUnit? (inRun : Bool) (c : Char) (r : Text) : Option DurationUnit :=
  if !inRun && isDecimalDigit c then DurationUnit.atFront? ((c :: r).dropWhile isDecimalDigit)
  else none

/-- A run at the front that a unit follows is found. -/
theorem findSpelled?_of_frontUnit? (h : frontUnit? inRun c r = some unit) :
    findSpelled? inRun (c :: r) = some ((c :: r).takeWhile isDecimalDigit, unit) := by
  obtain ⟨hcondition, hunit⟩ := Option.ite_none_right_eq_some.1 h
  rw [findSpelled?, if_pos hcondition, hunit]

/-- Where there is none at the front, the search goes on behind the first character. -/
theorem findSpelled?_of_frontUnit?_eq_none (h : frontUnit? inRun c r = none) :
    findSpelled? inRun (c :: r) = findSpelled? (isDecimalDigit c) r := by
  rw [findSpelled?]
  split
  · next hcondition =>
    rw [frontUnit?, if_pos hcondition] at h
    rw [Bool.and_eq_true] at hcondition
    rw [h, hcondition.2]
  · rfl

/-- What is found at the front is a run, which a unit follows. -/
theorem isSpelled_of_frontUnit? (h : frontUnit? inRun c r = some unit) :
    inRun = false ∧
      IsSpelled (c :: r) [] ((c :: r).takeWhile isDecimalDigit)
        ((c :: r).dropWhile isDecimalDigit) ∧
      DurationUnit.atFront? ((c :: r).dropWhile isDecimalDigit) = some unit := by
  obtain ⟨hcondition, hunit⟩ := Option.ite_none_right_eq_some.1 h
  rw [Bool.and_eq_true, Bool.not_eq_true'] at hcondition
  exact ⟨hcondition.1, ⟨isRun_takeWhile hcondition.2, DurationUnit.leads_of_atFront? hunit⟩, hunit⟩

/-- Where nothing is found at the front, no run stands there that a unit follows. -/
theorem not_isSpelled_of_frontUnit? (h : frontUnit? inRun c r = none) (hinRun : inRun = false) :
    ¬ IsSpelled (c :: r) [] digits after := by
  intro hspelled
  obtain ⟨hdigits, rfl⟩ := hspelled.eq_takeWhile
  have hc : isDecimalDigit c := by
    by_contra hc
    rw [List.takeWhile_cons_of_neg hc] at hdigits
    exact hspelled.ne_nil hdigits
  rw [frontUnit?, hinRun, if_pos (by rw [hc]; rfl)] at h
  exact DurationUnit.atFront?_eq_none_iff.1 h hspelled.leads

/-- Where the search finds nothing, no run has a unit. -/
theorem not_isSpelled_of_findSpelled? (h : findSpelled? inRun s = none)
    (hstart : before = [] → inRun = false) : ¬ IsSpelled s before digits after := by
  intro hspelled
  induction s generalizing inRun before with
  | nil =>
    have happend := (List.append_eq_nil_iff.1 hspelled.eq_append.symm).2
    exact hspelled.ne_nil (List.append_eq_nil_iff.1 happend).1
  | cons c r ih =>
    cases hfront : frontUnit? inRun c r with
    | some unit =>
      rw [findSpelled?_of_frontUnit? hfront] at h
      cases h
    | none =>
      rw [findSpelled?_of_frontUnit?_eq_none hfront] at h
      rcases hspelled.cases_cons with rfl | ⟨before, rfl, hspelled, hc⟩
      · exact not_isSpelled_of_frontUnit? hfront (hstart rfl) hspelled
      · exact ih h (fun hnil => Bool.eq_false_iff.2 (hc hnil)) hspelled

/-- What the search finds is the first run that has a unit. -/
theorem isSpelled_of_findSpelled? (h : findSpelled? inRun s = some (digits, unit)) :
    ∃ before after, IsSpelled s before digits after ∧ (before = [] → inRun = false) ∧
      DurationUnit.atFront? after = some unit ∧
      ∀ {before' digits' after'}, IsSpelled s before' digits' after' →
        (before' = [] → inRun = false) → before.length ≤ before'.length := by
  induction s generalizing inRun with
  | nil => cases h
  | cons c r ih =>
    cases hfront : frontUnit? inRun c r with
    | some unit =>
      rw [findSpelled?_of_frontUnit? hfront] at h
      cases h
      obtain ⟨hinRun, hspelled, hunit⟩ := isSpelled_of_frontUnit? hfront
      exact ⟨[], _, hspelled, fun _ => hinRun, hunit, fun _ _ => Nat.zero_le _⟩
    | none =>
      rw [findSpelled?_of_frontUnit?_eq_none hfront] at h
      obtain ⟨before, after, hspelled, hstart, hunit, hfirst⟩ := ih h
      refine ⟨c :: before, after, isSpelled_cons_iff.2 ⟨hspelled, ?_⟩, nofun, hunit, ?_⟩
      · exact fun hnil => Bool.eq_false_iff.1 (hstart hnil)
      · intro before' digits' after' hspelled' hstart'
        rcases hspelled'.cases_cons with rfl | ⟨before', rfl, hspelled', hc⟩
        · exact absurd hspelled' (not_isSpelled_of_frontUnit? hfront (hstart' rfl))
        · exact Nat.succ_le_succ (hfirst hspelled' fun hnil => Bool.eq_false_iff.2 (hc hnil))

/-- There is one first run at most. -/
theorem IsFirst.unique {before' digits' after' : Text} (h : IsFirst s before digits after)
    (h' : IsFirst s before' digits' after') :
    before = before' ∧ digits = digits' ∧ after = after' := by
  have hlength := le_antisymm (h.first h'.toIsSpelled) (h'.first h.toIsSpelled)
  obtain ⟨rfl, hrest⟩ := List.append_inj (h.eq_append.symm.trans h'.eq_append) hlength
  have hdigits : digits = digits' := by
    rw [← takeWhile_append_of_head h.allDigits h.right, hrest,
      takeWhile_append_of_head h'.allDigits h'.right]
  subst hdigits
  exact ⟨rfl, rfl, List.append_cancel_left hrest⟩

/-- The search finds the first run that has a unit, with the longest spelling behind it. -/
theorem findSpelled?_eq_some_iff : findSpelled? false s = some (digits, unit) ↔
    ∃ before spelling after, IsFirst s before digits after ∧
      DurationUnit.IsLongest after spelling unit := by
  constructor
  · intro h
    obtain ⟨before, after, hspelled, -, hunit, hfirst⟩ := isSpelled_of_findSpelled? h
    obtain ⟨spelling, hlongest⟩ := DurationUnit.exists_isLongest_of_atFront? hunit
    exact ⟨before, spelling, after, ⟨hspelled, fun h' => hfirst h' fun _ => rfl⟩, hlongest⟩
  · rintro ⟨before, spelling, after, hrun, hlongest⟩
    cases hfind : findSpelled? false s with
    | none => exact absurd hrun.toIsSpelled (not_isSpelled_of_findSpelled? hfind fun _ => rfl)
    | some found =>
      obtain ⟨digits', unit'⟩ := found
      obtain ⟨before', after', hspelled, -, hunit, hfirst⟩ := isSpelled_of_findSpelled? hfind
      obtain ⟨spelling', hlongest'⟩ := DurationUnit.exists_isLongest_of_atFront? hunit
      obtain ⟨rfl, rfl, rfl⟩ := hrun.unique ⟨hspelled, fun h' => hfirst h' fun _ => rfl⟩
      obtain ⟨rfl, rfl⟩ := hlongest.unique hlongest'
      rfl

/-! ## The outcome -/

/-- What there is to find in a text. -/
inductive Outcome (s : Text) : Except QueryError Duration → Prop
  /-- The first run that has a unit is a magnitude. -/
  | found {before digits after spelling : Text} {unit : DurationUnit}
      (run : IsFirst s before digits after) (longest : DurationUnit.IsLongest after spelling unit)
      (ascii : ∀ c ∈ digits, c.isDigit) (bound : Nat.ofDigitChars 10 digits 0 < magnitudeBound) :
      Outcome s (.ok ⟨Nat.ofDigitChars 10 digits 0, unit, bound⟩)
  /-- The first run that has a unit is none, whatever comes behind it. -/
  | valueless {before digits after : Text} (run : IsFirst s before digits after)
      (bound : (∀ c ∈ digits, c.isDigit) → magnitudeBound ≤ Nat.ofDigitChars 10 digits 0) :
      Outcome s (.error (.invalidDuration s))
  /-- No run has a unit. -/
  | absent (none : ∀ {before digits after}, ¬ IsSpelled s before digits after) :
      Outcome s (.error (.invalidDuration s))

variable {outcome : Except QueryError Duration}

/-- There is an outcome for each text. -/
theorem exists_outcome (s : Text) : ∃ outcome, Outcome s outcome := by
  cases hfind : findSpelled? false s with
  | none => exact ⟨_, .absent (not_isSpelled_of_findSpelled? hfind fun _ => rfl)⟩
  | some found =>
    obtain ⟨digits, unit⟩ := found
    obtain ⟨before, spelling, after, hrun, hlongest⟩ := findSpelled?_eq_some_iff.1 hfind
    by_cases hascii : ∀ c ∈ digits, c.isDigit
    · rcases lt_or_ge (Nat.ofDigitChars 10 digits 0) magnitudeBound with hlt | hge
      · exact ⟨_, .found hrun hlongest hascii hlt⟩
      · exact ⟨_, .valueless hrun fun _ => hge⟩
    · exact ⟨_, .valueless hrun fun h => absurd h hascii⟩

variable {n : ℕ}

/-- The first run that a unit follows is read as a number of that unit. -/
theorem find_of_isFirst (hrun : IsFirst s before digits after)
    (hlongest : DurationUnit.IsLongest after spelling unit) (hnumber : number? digits = some n)
    (hbound : n < magnitudeBound) : find s = .ok ⟨n, unit, hbound⟩ := by
  rw [find, findSpelled?_eq_some_iff.2 ⟨before, spelling, after, hrun, hlongest⟩]
  dsimp only
  rw [hnumber]
  exact dif_pos hbound

/-- The first run that a unit follows is refused if it has no number within the bound. -/
theorem find_eq_error_of_isFirst (hrun : IsFirst s before digits after)
    (hbound : ∀ n, number? digits = some n → magnitudeBound ≤ n) :
    find s = .error (.invalidDuration s) := by
  obtain ⟨spelling, unit, hlongest⟩ := hrun.leads.exists_isLongest
  rw [find, findSpelled?_eq_some_iff.2 ⟨before, spelling, after, hrun, hlongest⟩]
  dsimp only
  cases hnumber : number? digits with
  | none => rfl
  | some n => exact dif_neg (not_lt.2 (hbound n hnumber))

/-- What there is to find is found. -/
theorem Outcome.find_eq (h : Outcome s outcome) : find s = outcome := by
  cases h with
  | @found before digits after spelling unit hrun hlongest hascii hbound =>
    have hnumber : number? digits = some (Nat.ofDigitChars 10 digits 0) :=
      number?_eq_some_iff.2 ⟨hrun.ne_nil, hascii, digitsValue_eq digits⟩
    exact find_of_isFirst hrun hlongest hnumber hbound
  | @valueless before digits after hrun hbound =>
    refine find_eq_error_of_isFirst hrun ?_
    intro n hnumber
    obtain ⟨-, hascii, rfl⟩ := number?_eq_some_iff.1 hnumber
    rw [digitsValue_eq]
    exact hbound hascii
  | absent hnone =>
    have hfind : findSpelled? false s = none := by
      rw [Option.eq_none_iff_forall_not_mem]
      rintro ⟨digits, unit⟩ hfind
      obtain ⟨before, spelling, after, hrun, -⟩ := findSpelled?_eq_some_iff.1 hfind
      exact hnone hrun.toIsSpelled
    rw [find, hfind]

/-! ## Durations in a text -/

/-- No run starts in front of where a part without digits ends. -/
theorem IsRun.length_le (h : IsRun s before digits after) {front : Text} (hfront : front <+: s)
    (hquiet : ∀ c ∈ front, ¬ isDecimalDigit c) : front.length ≤ before.length := by
  by_contra hlt
  have hbefore : before <+: s := ⟨digits ++ after, h.eq_append.symm⟩
  obtain ⟨more, rfl⟩ :=
    List.prefix_of_prefix_length_le hbefore hfront (Nat.le_of_lt (not_le.1 hlt))
  obtain ⟨rest, hrest⟩ := hfront
  rw [h.eq_append, List.append_assoc, List.append_cancel_left_eq] at hrest
  obtain ⟨c, digits, rfl⟩ := List.exists_cons_of_ne_nil h.ne_nil
  cases more with
  | nil =>
    rw [List.append_nil] at hlt
    exact hlt le_rfl
  | cons d more =>
    obtain ⟨rfl, -⟩ := List.cons.inj hrest
    exact hquiet d (List.mem_append_right before (List.mem_cons_self ..))
      (h.allDigits d (List.mem_cons_self ..))

/-- A number with a unit behind it is the first one behind a part without digits. -/
theorem isFirst_append {front digits spelling suffix : Text}
    (hfront : ∀ c ∈ front, ¬ isDecimalDigit c) (hne : digits ≠ [])
    (hdigits : ∀ c ∈ digits, c.isDigit)
    (hlongest : DurationUnit.IsLongest (spelling ++ suffix) spelling unit) :
    IsFirst (front ++ (digits ++ (spelling ++ suffix))) front digits (spelling ++ suffix) where
  eq_append := rfl
  ne_nil := hne
  allDigits d hd := isDecimalDigit_of_isDigit (hdigits d hd)
  left d hd := hfront d (List.mem_of_mem_getLast? hd)
  right d hd := by
    rw [List.head?_append_of_ne_nil _ (DurationUnit.ne_nil_of_mem_spellings hlongest.mem)] at hd
    exact DurationUnit.not_isDecimalDigit_of_mem_spellings hlongest.mem hd
  leads := ⟨_, hlongest.mem, hlongest.leads⟩
  first h := h.toIsRun.length_le (List.prefix_append front _) hfront

/-- A text is read as its first run of digits that a unit follows at once, with the longest unit
that does, if that run is a number in ASCII digits within the bound, and refused otherwise. So a
number is found behind any part without digits and in front of any unit that goes on to no longer
one. -/
theorem find_grammar (s : Text) :
    (∀ outcome, find s = outcome ↔ Outcome s outcome) ∧
    ∀ {front n spelling suffix unit} (bound : n < magnitudeBound),
      s = front ++ (decimal n ++ (spelling ++ suffix)) →
      (∀ c ∈ front, ¬ isDecimalDigit c) →
      DurationUnit.IsLongest (spelling ++ suffix) spelling unit →
      find s = .ok ⟨n, unit, bound⟩ := by
  constructor
  · intro outcome
    constructor
    · rintro rfl
      obtain ⟨outcome, houtcome⟩ := exists_outcome s
      rwa [houtcome.find_eq]
    · exact Outcome.find_eq
  · rintro front n spelling suffix unit hbound rfl hfront hlongest
    have hdigits := isDigits_decimal n
    have hrun := isFirst_append hfront hdigits.ne_nil hdigits.isDigit hlongest
    exact find_of_isFirst hrun hlongest (number?_decimal n) hbound

/-- A month is no minute, a millisecond none either, and a capital letter is a month. -/
theorem find_grammar_longestUnits :
    "every 5month7s".toList = "every ".toList ++ (decimal 5 ++ ("month".toList ++ "7s".toList)) ∧
    DurationUnit.IsLongest ("month".toList ++ "7s".toList) "month".toList .month ∧
    find "every 5month7s".toList = .ok { magnitude := 5, unit := .month } ∧
    DurationUnit.IsLongest ("ms".toList ++ "5M".toList) "ms".toList .millisecond ∧
    find "200ms5M".toList = .ok { magnitude := 200, unit := .millisecond } ∧
    DurationUnit.IsLongest ("M".toList ++ "onth".toList) "M".toList .month ∧
    find "3Month".toList = .ok { magnitude := 3, unit := .month } := by
  have hsplit : "every 5month7s".toList =
      "every ".toList ++ (decimal 5 ++ ("month".toList ++ "7s".toList)) := by decide +kernel
  have hall : "every ".toList.all fun c => !isDecimalDigit c := by decide +kernel
  have hfront (c : Char) (hc : c ∈ "every ".toList) : ¬ isDecimalDigit c := by
    have hcheck := List.all_eq_true.1 hall c hc
    rwa [Bool.not_eq_true', ← Bool.not_eq_true] at hcheck
  have hmonth : DurationUnit.IsLongest ("month".toList ++ "7s".toList) "month".toList .month :=
    ⟨by decide, List.prefix_append _ _, by decide +kernel⟩
  have hmillisecond :
      DurationUnit.IsLongest ("ms".toList ++ "5M".toList) "ms".toList .millisecond :=
    ⟨by decide, List.prefix_append _ _, by decide +kernel⟩
  have hcapital : DurationUnit.IsLongest ("M".toList ++ "onth".toList) "M".toList .month :=
    ⟨by decide, List.prefix_append _ _, by decide +kernel⟩
  have hnone (c : Char) (hc : c ∈ ([] : Text)) : ¬ isDecimalDigit c := absurd hc List.not_mem_nil
  exact ⟨hsplit, hmonth, (find_grammar _).2 (by decide) hsplit hfront hmonth, hmillisecond,
    (find_grammar _).2 (by decide) (by decide +kernel) hnone hmillisecond, hcapital,
    (find_grammar _).2 (by decide) (by decide +kernel) hnone hcapital⟩

/-- A run without a value hides the durations behind it. -/
example : find "every ٣m or 5m".toList = .error (.invalidDuration "every ٣m or 5m".toList) := by
  decide +kernel

end Duration

end SeriesQuery
