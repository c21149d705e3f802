import SeriesQuery.Proofs.Time.Absolute
import SeriesQuery.Proofs.Time.Calendar
import SeriesQuery.Proofs.Time.Expression

/-!
# Printed instants read back

`Prints form s d` says that a text writes an instant out in one of the forms, with the fields that a
clock shows of it. `resolveDate_prints` says that every such text is resolved to the instant: the
fields are read back in digits, the calendar leads from them to the instant, no other form takes the
text, and nothing in it makes it more than an absolute date.
-/

namespace SeriesQuery

open Text

/-! ## Printing -/

/-- Three numbers as they are printed, the last two in two digits each. -/
def printFields (sep : Char) (width first second third : ℕ) : Text :=
  padded width first ++ sep :: (padded 2 second ++ sep :: padded 2 third)

/-- A date as it is printed, with four digits for the year. -/
def Date.print (d : Date) : Text := printFields '-' 4 d.year.toNat d.month d.day

namespace CivilTime

/-- A time of day as it is printed, up to its second. -/
def printClock (t : CivilTime) : Text := printFields ':' 2 t.hour t.minute t.second

/-- The fraction of a second in some places behind a point. -/
def printFraction (t : CivilTime) (places : ℕ) : Text :=
  if places = 0 then [] else '.' :: padded places (t.nanos / 10 ^ (9 - places))

end CivilTime

/-- Hours and minutes as an offset is printed. -/
def printMinutes (minutes : ℕ) : Text :=
  padded 2 (minutes / 60) ++ ':' :: padded 2 (minutes % 60)

/-- The text writes an offset from UTC, of whole minutes and less than a day. -/
inductive PrintsOffset : Text → ℤ → Prop
  | utc {letter : Char} (hletter : letter = 'Z' ∨ letter = 'z') : PrintsOffset [letter] 0
  | signed {c : Char} {sign : ℤ} {minutes : ℕ} (hsign : c = '+' ∧ sign = 1 ∨ c = '-' ∧ sign = -1)
      (hminutes : minutes < 1440) : PrintsOffset (c :: printMinutes minutes) (sign * (minutes * 60))

/-- The text writes an instant out in a form. -/
inductive Prints : AbsoluteForm → Text → Instant → Prop
  | millis {s : Text} {d : Instant} (hs : s = decimal d.millis) (hepoch : 0 ≤ d.seconds)
      (hleap : ¬ d.InLeapSecond) (hwhole : 1000000 ∣ d.nanos) : Prints .millis s d
  | timestamp {s : Text} {d : Instant} {mark : Char} {places : ℕ} {zone : Text} {offset : ℤ}
      (hs : s = (d.civil offset).date.print ++ mark ::
        ((d.civil offset).printClock ++ ((d.civil offset).printFraction places ++ zone)))
      (hmark : IsTimeMark mark) (hplaces : places ≤ 9) (hzone : PrintsOffset zone offset)
      (hyear : 0 ≤ (d.civil offset).date.year ∧ (d.civil offset).date.year ≤ 9999)
      (hleap : ¬ d.InLeapSecond) (hexact : 10 ^ (9 - places) ∣ d.nanos) : Prints .timestamp s d
  | dateTime {s : Text} {d : Instant}
      (hs : s = (d.civil 0).date.print ++ ' ' :: (d.civil 0).printClock)
      (hyear : 0 ≤ (d.civil 0).date.year ∧ (d.civil 0).date.year ≤ 9999)
      (hwhole : d.nanos = 0) : Prints .dateTime s d
  | day {s : Text} {d : Instant} (hs : s = (d.civil 0).date.print)
      (hyear : 0 ≤ (d.civil 0).date.year ∧ (d.civil 0).date.year ≤ 9999)
      (hmidnight : d.seconds % Instant.secondsPerDay = 0) (hwhole : d.nanos = 0) : Prints .day s d

/-! ## Reading the fields back -/

/-- Three numbers that fit their places are printed in fields. -/
theorem exists_fields (width first second third : ℕ) (hwidth : 0 < width)
    (hfirst : first < 10 ^ width) (hsecond : second < 100) (hthird : third < 100) :
    ∃ f : Fields width, (∀ sep, f.text sep = printFields sep width first second third) ∧
      digitsValue f.first = first ∧ digitsValue f.second = second ∧ digitsValue f.third = third :=
  ⟨⟨padded width first, padded 2 second, padded 2 third, isDigits_padded hwidth hfirst,
      isDigits_padded Nat.zero_lt_two hsecond, isDigits_padded Nat.zero_lt_two hthird⟩,
    fun _ => rfl, digitsValue_padded .., digitsValue_padded .., digitsValue_padded ..⟩

namespace CivilTime

variable {t : CivilTime}

/-- A date is printed in fields. -/
theorem IsPlain.exists_dateFields (h : t.IsPlain) :
    ∃ g : Fields 4, g.text '-' = t.date.print ∧ g.date = t.date := by
  obtain ⟨hmonth, hmonth', hday, hday'⟩ := h.isValid
  obtain ⟨hyear, hyear'⟩ := h.year_mem
  have hlength := monthLength_le t.date.year t.date.month
  obtain ⟨g, htext, hfirst, hsecond, hthird⟩ :=
    exists_fields 4 t.date.year.toNat t.date.month t.date.day (by decide) (by omega) (by omega)
      (by omega)
  refine ⟨g, htext '-', ?_⟩
  rw [Fields.date, hfirst, hsecond, hthird, Int.toNat_of_nonneg hyear]

/-- A time of day is printed in fields. -/
theorem IsPlain.exists_clockFields (h : t.IsPlain) :
    ∃ c : Fields 2, c.text ':' = t.printClock ∧
      ∀ date nanos, c.time date nanos = ⟨date, t.hour, t.minute, t.second, nanos⟩ := by
  have hhour := h.hour_lt
  have hminute := h.minute_lt
  have hsecond := h.second_lt
  obtain ⟨c, htext, hvalue, hvalue', hvalue''⟩ :=
    exists_fields 2 t.hour t.minute t.second (by decide) (by omega) (by omega) (by omega)
  refine ⟨c, htext ':', fun date nanos => ?_⟩
  rw [Fields.time, hvalue, hvalue', hvalue'']

/-- The places of a fraction have room for its digits. -/
theorem printFraction_lt (hnanos : t.nanos < nanosPerSecond) {places : ℕ} (hplaces : places ≤ 9) :
    t.nanos / 10 ^ (9 - places) < 10 ^ places := by
  refine Nat.div_lt_of_lt_mul (hnanos.trans_eq ?_)
  rw [← pow_add, Nat.sub_add_cancel hplaces]
  decide

/-- A fraction is read back in places enough for it, before what is no digit and no point. -/
theorem readFraction?_append (hnanos : t.nanos < nanosPerSecond) {places : ℕ} (hplaces : places ≤ 9)
    (hexact : 10 ^ (9 - places) ∣ t.nanos) {zone : Text}
    (hzone : ∀ c ∈ zone.head?, c ≠ '.' ∧ ¬ c.isDigit) :
    readFraction? (t.printFraction places ++ zone) = some (t.nanos, zone) := by
  by_cases hzero : places = 0
  · subst hzero
    have hpoint : after? ['.'] zone = none := by
      cases zone with
      | nil => rfl
      | cons c r => rw [after?, if_neg (Ne.symm (hzone c rfl).1)]
    have hnone : t.nanos = 0 := Nat.eq_zero_of_dvd_of_lt hexact hnanos
    rw [printFraction, if_pos rfl, List.nil_append, readFraction?, hpoint, hnone]
  · have hdigits := isDigits_padded (Nat.pos_of_ne_zero hzero) (printFraction_lt hnanos hplaces)
    generalize hg : padded places (t.nanos / 10 ^ (9 - places)) = g at hdigits
    have hvalue : digitsValue g * Nat.pow 10 (9 - places) = t.nanos := by
      rw [← hg, digitsValue_padded]
      exact Nat.div_mul_cancel hexact
    have hhead : ∀ c ∈ zone.head?, ¬ c.isDigit := fun c hc => (hzone c hc).2
    have htake := takeWhile_append_of_head hdigits.isDigit hhead
    have hdrop := dropWhile_append_of_head hdigits.isDigit hhead
    have hcounted : g.take 9 = g := List.take_of_length_le (hdigits.length_eq ▸ hplaces)
    rw [printFraction, if_neg hzero, hg, List.cons_append, readFraction?, after?_self_cons]
    simp only [htake, hdrop, if_neg hdigits.ne_nil, hcounted, hdigits.length_eq, hvalue]

end CivilTime

section
variable {zone : Text} {offset : ℤ}

/-- The hours and minutes of less than a day have two digits each. -/
theorem isDigits_minutes {minutes : ℕ} (hminutes : minutes < 1440) :
    IsDigits 2 (padded 2 (minutes / 60)) ∧ IsDigits 2 (padded 2 (minutes % 60)) :=
  ⟨isDigits_padded Nat.zero_lt_two (by omega), isDigits_padded Nat.zero_lt_two (by omega)⟩

/-- An offset is read back, and nothing is left of it. -/
theorem PrintsOffset.readOffset?_eq (h : PrintsOffset zone offset) :
    readOffset? zone = some (offset, []) := by
  cases h with
  | utc hletter => rw [readOffset?, if_pos hletter]
  | @signed c sign minutes hsign hminutes =>
    obtain ⟨hhour, hminute⟩ := isDigits_minutes hminutes
    have hend := readDigits?_append hminute []
    rw [List.append_nil] at hend
    have hvalid : minutes / 60 < 24 ∧ minutes % 60 < 60 := by omega
    have hseconds : ((minutes / 60 : ℕ) : ℤ) * 3600 + (minutes % 60 : ℕ) * 60 = minutes * 60 := by
      omega
    have hletter : ¬ (c = 'Z' ∨ c = 'z') := by
      rcases hsign with ⟨rfl, -⟩ | ⟨rfl, -⟩ <;> decide
    rw [readOffset?, if_neg hletter]
    simp only [printMinutes, readDigits?_append hhour, after?_self_cons, hend, digitsValue_padded,
      Option.bind_eq_bind, Option.bind_some, if_pos hvalid, hseconds]
    rcases hsign with ⟨rfl, rfl⟩ | ⟨rfl, rfl⟩
    · rfl
    · rfl

/-- An offset does not go on with a fraction. -/
theorem PrintsOffset.head_mem (h : PrintsOffset zone offset) :
    ∀ c ∈ zone.head?, c ≠ '.' ∧ ¬ c.isDigit := by
  cases h with
  | utc hletter => rcases hletter with rfl | rfl <;> (rintro _ ⟨⟩; decide)
  | signed hsign => rcases hsign with ⟨rfl, -⟩ | ⟨rfl, -⟩ <;> (rintro _ ⟨⟩; decide)

end

/-! ## Nothing else in the text -/

/-- Nothing in the text makes it more than an absolute date: no blank at its ends, no bars, and not
the word for the present. -/
structure StandsAlone (s : Text) : Prop where
  hasBareEnds : HasBareEnds s
  not_mem : 'n' ∉ s ∧ '|' ∉ s

/-- A text on its own is resolved to the absolute date that it is, or to nothing. -/
theorem StandsAlone.resolveDate_eq_ok_iff {now d : Instant} {roundUp : Bool} {s : Text}
    (h : StandsAlone s) : resolveDate now roundUp s = .ok d ↔ readAbsolute? s = some d := by
  have hpresent : ¬ DateExpression.present <+: s := fun hs => h.not_mem.1 (hs.subset (by decide))
  have hbars : ¬ "||".toList <:+: s := fun hs => h.not_mem.2 (hs.subset (by decide))
  have hanchored : Anchored now (trim s) (readAbsolute? s) [] := by
    rw [hasBareEnds_iff.1 h.hasBareEnds]
    exact .alone hpresent hbars rfl rfl
  rw [resolveDate_of_anchored hanchored]
  cases readAbsolute? s with
  | none => exact ⟨nofun, nofun⟩
  | some a =>
    have houtcome : DateExpression.outcome roundUp (some a) [] = .ok a :=
      DateExpression.outcome_of_spellsSteps (show SpellsSteps [] [] from ⟨nofun, rfl⟩)
    rw [houtcome]
    exact ⟨fun he => by cases he; rfl, fun he => by cases he; rfl⟩

/-- Texts that stand alone do so with something between them that holds no bar and not the first
letter of the present. -/
theorem StandsAlone.surround {s t m : Text} (hs : StandsAlone s) (ht : StandsAlone t)
    (hsne : s ≠ []) (htne : t ≠ []) (hm : 'n' ∉ m ∧ '|' ∉ m) : StandsAlone (s ++ (m ++ t)) where
  hasBareEnds := hs.hasBareEnds.surround ht.hasBareEnds hsne htne m
  not_mem := by
    simp only [List.mem_append, not_or]
    exact ⟨⟨hs.not_mem.1, hm.1, ht.not_mem.1⟩, hs.not_mem.2, hm.2, ht.not_mem.2⟩

/-- Digits stand alone. -/
theorem Text.IsDigits.standsAlone {width : ℕ} {g : Text} (h : IsDigits width g) :
    StandsAlone g where
  hasBareEnds := h.hasBareEnds
  not_mem := ⟨fun hn => absurd (h.isDigit _ hn) (by decide),
    fun hbar => absurd (h.isDigit _ hbar) (by decide)⟩

/-- Three numbers with separators stand alone. -/
theorem Fields.standsAlone {width : ℕ} (f : Fields width) (sep : Char)
    (hsep : 'n' ≠ sep ∧ '|' ≠ sep) : StandsAlone (f.text sep) := by
  have hsecond := f.second_isDigits.standsAlone.not_mem
  have hmiddle : 'n' ∉ sep :: (f.second ++ [sep]) ∧ '|' ∉ sep :: (f.second ++ [sep]) := by
    simp [hsep, hsecond]
  have h := f.first_isDigits.standsAlone.surround f.third_isDigits.standsAlone
    f.first_isDigits.ne_nil f.third_isDigits.ne_nil hmiddle
  rwa [List.cons_append, List.append_assoc] at h

/-- A fraction holds no bar and not the first letter of the present. -/
theorem CivilTime.not_mem_printFraction {t : CivilTime} (hnanos : t.nanos < nanosPerSecond)
    {places : ℕ} (hplaces : places ≤ 9) :
    'n' ∉ t.printFraction places ∧ '|' ∉ t.printFraction places := by
  rw [printFraction]
  split
  · decide
  · next hzero =>
    have hdigits := isDigits_padded (Nat.pos_of_ne_zero hzero) (printFraction_lt hnanos hplaces)
    have hplaces := hdigits.standsAlone.not_mem
    simp [hplaces]

/-- An offset stands alone. -/
theorem PrintsOffset.standsAlone {zone : Text} {offset : ℤ} (h : PrintsOffset zone offset) :
    zone ≠ [] ∧ StandsAlone zone := by
  cases h with
  | utc hletter =>
    rcases hletter with rfl | rfl <;>
      exact ⟨nofun, hasBareEnds_singleton (by decide), by decide⟩
  | @signed c sign minutes hsign hminutes =>
    obtain ⟨hhour, hminute⟩ := isDigits_minutes hminutes
    have hc : StandsAlone [c] := by
      rcases hsign with ⟨rfl, -⟩ | ⟨rfl, -⟩ <;>
        exact ⟨hasBareEnds_singleton (by decide), by decide⟩
    have hhour' := hhour.standsAlone.not_mem
    have hmiddle : 'n' ∉ padded 2 (minutes / 60) ++ [':'] ∧
        '|' ∉ padded 2 (minutes / 60) ++ [':'] := by
      simp [hhour']
    have h := hc.surround hminute.standsAlone nofun hminute.ne_nil hmiddle
    rw [List.append_assoc] at h
    exact ⟨nofun, h⟩

namespace Instant

variable {d : Instant}

/-- At a whole second, no leap second has begun. -/
theorem not_inLeapSecond (hwhole : d.nanos = 0) : ¬ d.InLeapSecond := by
  rw [InLeapSecond, hwhole]
  decide

/-- A clock shows midnight at midnight. -/
theorem civil_of_midnight (hmidnight : d.seconds % secondsPerDay = 0) (hwhole : d.nanos = 0) :
    d.civil 0 = { date := (d.civil 0).date } := by
  unfold secondsPerDay at hmidnight
  rw [CivilTime.mk.injEq]
  dsimp only [civil, secondsPerDay]
  refine ⟨rfl, ?_, ?_, ?_, hwhole⟩ <;> omega

/-- At or after the epoch, milliseconds are a natural number. -/
theorem exists_millis_eq (hepoch : 0 ≤ d.seconds) : ∃ n : ℕ, d.millis = n :=
  Int.eq_ofNat_of_zero_le (by unfold millis; omega)

end Instant

section
variable {form : AbsoluteForm} {s : Text} {d : Instant}

/-- A print is no more than an absolute date. -/
theorem Prints.standsAlone (h : Prints form s d) : StandsAlone s := by
  cases h with
  | millis hs hepoch =>
    obtain ⟨n, hn⟩ := Instant.exists_millis_eq hepoch
    rw [hs, hn]
    exact (isDigits_decimal n).standsAlone
  | @timestamp s d mark places zone offset hs hmark hplaces hzone hyear hleap =>
    have hplain := CivilTime.isPlain_civil hleap hyear
    obtain ⟨g, hdate, -⟩ := hplain.exists_dateFields
    obtain ⟨c, hclock, -⟩ := hplain.exists_clockFields
    obtain ⟨hne, halone⟩ := hzone.standsAlone
    have hmark : 'n' ≠ mark ∧ '|' ≠ mark := by rcases hmark with rfl | rfl | rfl <;> decide
    have hclock' := (c.standsAlone ':' (by decide)).not_mem
    have hfraction := CivilTime.not_mem_printFraction hplain.nanos_lt hplaces
    have hmiddle : 'n' ∉ mark :: (c.text ':' ++ (d.civil offset).printFraction places) ∧
        '|' ∉ mark :: (c.text ':' ++ (d.civil offset).printFraction places) := by
      simp [hmark, hclock', hfraction]
    have h := (g.standsAlone '-' (by decide)).surround halone (g.text_ne_nil '-') hne hmiddle
    rwa [List.cons_append, List.append_assoc, hdate, hclock, ← hs] at h
  | dateTime hs hyear hwhole =>
    have hplain := CivilTime.isPlain_civil (Instant.not_inLeapSecond hwhole) hyear
    obtain ⟨g, hdate, -⟩ := hplain.exists_dateFields
    obtain ⟨c, hclock, -⟩ := hplain.exists_clockFields
    have h := (g.standsAlone '-' (by decide)).surround (c.standsAlone ':' (by decide))
      (g.text_ne_nil '-') (c.text_ne_nil ':') (m := [' ']) (by decide)
    rwa [List.singleton_append, hdate, hclock, ← hs] at h
  | day hs hyear hmidnight hwhole =>
    have hplain := CivilTime.isPlain_civil (Instant.not_inLeapSecond hwhole) hyear
    obtain ⟨g, hdate, -⟩ := hplain.exists_dateFields
    rw [hs, ← hdate]
    exact g.standsAlone '-' (by decide)

/-- A print is read in its form. -/
theorem Prints.read?_eq (h : Prints form s d) : form.read? s = some d := by
  cases h with
  | millis hs hepoch hleap hwhole =>
    obtain ⟨n, hn⟩ := Instant.exists_millis_eq hepoch
    subst hs
    rw [AbsoluteForm.read?, hn, number?_decimal, Option.bind_some, Instant.ofMillis?_eq_some_iff]
    exact ⟨hn, hleap, hwhole⟩
  | @timestamp s d mark places zone offset hs hmark hplaces hzone hyear hleap hexact =>
    have hplain := CivilTime.isPlain_civil hleap hyear
    obtain ⟨g, hdate, hg⟩ := hplain.exists_dateFields
    obtain ⟨c, hclock, hc⟩ := hplain.exists_clockFields
    refine readTimestamp?_eq_some_iff.2 ⟨g, mark, c, _, zone, d.nanos, offset, ?_, hmark,
      CivilTime.readFraction?_append hplain.nanos_lt hplaces hexact hzone.head_mem,
      hzone.readOffset?_eq, ?_⟩
    · rw [hs, hdate, hclock]
    · rw [hc, hg]
      exact hplain.toInstant?_civil
  | dateTime hs hyear hwhole =>
    have hplain := CivilTime.isPlain_civil (Instant.not_inLeapSecond hwhole) hyear
    obtain ⟨g, hdate, hg⟩ := hplain.exists_dateFields
    obtain ⟨c, hclock, hc⟩ := hplain.exists_clockFields
    have hread := readDateTime?_append g (.inr (.inr rfl)) c []
    rw [List.append_nil, if_pos ⟨rfl, rfl⟩, hdate, hclock, hc, hg, ← hwhole] at hread
    rw [AbsoluteForm.read?, hs, hread]
    exact hplain.toInstant?_civil
  | @day s d hs hyear hmidnight hwhole =>
    have hplain := CivilTime.isPlain_civil (Instant.not_inLeapSecond hwhole) hyear
    obtain ⟨g, hdate, hg⟩ := hplain.exists_dateFields
    have hread := readDay?_append g []
    rw [List.append_nil, if_pos rfl, hdate, hg,
      ← Instant.civil_of_midnight hmidnight hwhole] at hread
    rw [AbsoluteForm.read?, hs, hread]
    exact hplain.toInstant?_civil

/-- An instant that is written out is resolved to itself. -/
theorem Prints.resolveDate_eq (h : Prints form s d) (now : Instant) (roundUp : Bool) :
    resolveDate now roundUp s = .ok d := by
  rw [h.standsAlone.resolveDate_eq_ok_iff, readAbsolute?_eq_some_iff,
    hasBareEnds_iff.1 h.standsAlone.hasBareEnds]
  exact ⟨form, h.read?_eq⟩

/-- A number of milliseconds is the print of an instant up to the end of the calendar. -/
theorem exists_prints_decimal {n : ℕ} (hn : (n : ℤ) ≤ Instant.lastMilli) :
    ∃ d : Instant, d.millis = n ∧ ¬ d.InLeapSecond ∧ 1000000 ∣ d.nanos ∧
      Prints .millis (decimal n) d := by
  cases hd : Instant.ofMillis? n with
  | none =>
    have hrange := Instant.ofMillis?_eq_none_iff.1 hd
    unfold Instant.firstMilli firstSecond at hrange
    omega
  | some d =>
    obtain ⟨hmillis, hleap, hwhole⟩ := Instant.ofMillis?_eq_some_iff.1 hd
    have hepoch : 0 ≤ d.seconds := by
      unfold Instant.millis at hmillis
      unfold Instant.InLeapSecond nanosPerSecond at hleap
      omega
    exact ⟨d, hmillis, hleap, hwhole, .millis (by rw [hmillis]) hepoch hleap hwhole⟩

end

/-- Every printed instant is resolved to itself, at every present and whichever way dates are
rounded, and its text is one of its own form only: no text is read in two forms, so the order in
which they are tried makes no difference. Every number of milliseconds up to the end of the calendar
is that of an instant, and every date and time of day outside leap seconds in the years of four
digits is what a clock less than a day from UTC shows of one instant. -/
theorem resolveDate_prints (now : Instant) (roundUp : Bool) :
    (∀ form s d, Prints form s d → form.read? s = some d ∧ resolveDate now roundUp s = .ok d) ∧
    (∀ s, (∀ d, readAbsolute? s = some d ↔ ∃ form : AbsoluteForm, form.read? (trim s) = some d) ∧
      ∀ form form' d d', AbsoluteForm.read? form s = some d →
        AbsoluteForm.read? form' s = some d' → form = form') ∧
    (∀ n : ℕ, (n : ℤ) ≤ Instant.lastMilli → ∃ d : Instant, d.millis = n ∧ ¬ d.InLeapSecond ∧
      1000000 ∣ d.nanos ∧ resolveDate now roundUp (decimal n) = .ok d) ∧
    ∀ (t : CivilTime) (offset : ℤ), t.IsPlain → |offset| < 86400 →
      ∃! d : Instant, ¬ d.InLeapSecond ∧ d.civil offset = t := by
  refine ⟨fun form s d h => ⟨h.read?_eq, h.resolveDate_eq now roundUp⟩, fun s => ⟨fun d => ?_, ?_⟩,
    fun n hn => ?_, fun t offset ht => ht.existsUnique_civil⟩
  · exact readAbsolute?_eq_some_iff
  · exact fun _ _ _ _ h h' => AbsoluteForm.eq_of_read? h h'
  · obtain ⟨d, hmillis, hleap, hwhole, hprints⟩ := exists_prints_decimal hn
    exact ⟨d, hmillis, hleap, hwhole, hprints.resolveDate_eq now roundUp⟩

/-- An instant on a leap day, in each of the forms. -/
theorem resolveDate_prints_leapDay :
    resolveDate .epoch true "1709231399250".toList =
      .ok { seconds := 1709231399, nanos := 250000000 } ∧
    resolveDate .epoch true "2024-02-29t23:59:59.25+05:30".toList =
      .ok { seconds := 1709231399, nanos := 250000000 } ∧
    resolveDate .epoch true "2024-02-29 18:29:59".toList =
      .ok { seconds := 1709231399, nanos := 0 } ∧
    resolveDate .epoch true "2024-02-29".toList =
      .ok { seconds := 1709164800, nanos := 0 } := by
  obtain ⟨hprints, -⟩ := resolveDate_prints .epoch true
  have hzone : PrintsOffset ('+' :: printMinutes 330) (1 * ((330 : ℕ) * 60)) :=
    .signed (.inl ⟨rfl, rfl⟩) (by decide)
  refine ⟨(hprints .millis _ _ ?_).2, (hprints .timestamp _ _ ?_).2, (hprints .dateTime _ _ ?_).2,
    (hprints .day _ _ ?_).2⟩
  · exact .millis (by decide +kernel) (by decide) (by decide) (by decide)
  · exact @Prints.timestamp _ _ 't' 2 _ _ (by decide +kernel) (.inr (.inl rfl)) (by decide) hzone
      (by decide +kernel) (by decide) (by decide)
  · exact .dateTime (by decide +kernel) (by decide +kernel) rfl
  · exact .day rfl (by decide +kernel) (by decide) rfl

end SeriesQuery
