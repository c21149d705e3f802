import SeriesQuery.Proofs.Time.Unit

/-!
# Units cut up the line of time

The units of one kind lie one behind the other without a gap. A second between the first and the
last one of a unit lies in that unit and in no other (`DateUnit.eq_of_mem`), and the second behind
the last one begins the next unit (`DateUnit.first_next`). That is all that rounding needs of the
calendar: an instant lies between the two roundings of another exactly if both have the same ones
(`Instant.rounding_partition`).
-/

namespace SeriesQuery

/-- The days of a month are those from its first one on, as many as it has. -/
theorem Date.IsValid.ofDayNumber_eq {d : Date} (h : d.IsValid) {n : ℤ}
    (hfirst : { d with day := 1 }.dayNumber ≤ n)
    (hnext : n < { d with day := 1 }.dayNumber + monthLength d.year d.month) :
    ofDayNumber n = { d with day := (n - { d with day := 1 }.dayNumber + 1).toNat } := by
  obtain ⟨hmonth, hmonth', -, -⟩ := h
  have hvalid : IsValid { d with day := (n - { d with day := 1 }.dayNumber + 1).toNat } := by
    refine ⟨hmonth, hmonth', ?_, ?_⟩
    · dsimp only
      omega
    · dsimp only
      omega
  have hnumber : dayNumber { d with day := (n - { d with day := 1 }.dayNumber + 1).toNat } = n := by
    rw [dayNumber_eq_add]
    dsimp only
    omega
  rw [← ofDayNumber_dayNumber hvalid, hnumber]

namespace DateUnit

variable (unit : DateUnit) {s t : ℤ}

/-- Every unit has a length. -/
theorem length_pos (s : ℤ) : 0 < unit.length s := by
  have hfirst := unit.first_le s
  have hnext := unit.lt_first_add_length s
  omega

/-- A second between the first and the last one of a unit lies in that unit. -/
theorem eq_of_mem (hfirst : unit.first s ≤ t) (hnext : t < unit.first s + unit.length s) :
    unit.first t = unit.first s ∧ unit.length t = unit.length s := by
  cases unit with
  | second | minute | hour | day =>
    dsimp only [first, length, Instant.secondsPerDay] at *
    omega
  | week =>
    dsimp only [first, length, daysSinceMonday, Instant.secondsPerDay] at *
    omega
  | month =>
    have hvalid := Date.isValid_ofDayNumber (s / Instant.secondsPerDay)
    have hday := hvalid.ofDayNumber_eq (n := t / Instant.secondsPerDay)
      (by dsimp only [first, length, Instant.secondsPerDay] at *; omega)
      (by dsimp only [first, length, Instant.secondsPerDay] at *; omega)
    dsimp only [first, length]
    rw [hday]
    exact ⟨rfl, rfl⟩
  | year =>
    have hyear : yearOfDay (t / Instant.secondsPerDay) = yearOfDay (s / Instant.secondsPerDay) := by
      have hsucc := firstDayOfYear_succ (yearOfDay (s / Instant.secondsPerDay))
      dsimp only [first, length, Instant.secondsPerDay] at *
      exact yearOfDay_eq (by omega) (by omega)
    dsimp only [first, length]
    rw [hyear]
    exact ⟨rfl, rfl⟩

/-- The first second of a unit lies in it. -/
theorem eq_of_first (s : ℤ) :
    unit.first (unit.first s) = unit.first s ∧ unit.length (unit.first s) = unit.length s := by
  have hpos := unit.length_pos s
  exact unit.eq_of_mem le_rfl (by omega)

/-- Units that begin together are of one length. -/
theorem length_eq_of_first_eq (h : unit.first t = unit.first s) :
    unit.length t = unit.length s := by
  rw [← (unit.eq_of_first t).2, h, (unit.eq_of_first s).2]

/-- A later second lies in no earlier unit. -/
theorem first_mono (h : s ≤ t) : unit.first s ≤ unit.first t := by
  by_contra hlt
  have hle := unit.first_le s
  have hnext := unit.lt_first_add_length t
  have heq := (unit.eq_of_mem (s := t) (t := s) (by omega) (by omega)).1
  omega

/-- The second behind the last one of a unit begins another unit. -/
theorem first_next (s : ℤ) : unit.first (unit.first s + unit.length s) =
    unit.first s + unit.length s := by
  have hpos := unit.length_pos s
  have hle := unit.first_le (unit.first s + unit.length s)
  by_contra hne
  -- Else the last second of the unit lies in the next one too, and both end where the first ends.
  have hlast := unit.eq_of_mem (s := s) (t := unit.first s + unit.length s - 1)
    (by omega) (by omega)
  have hlast' := unit.eq_of_mem (s := unit.first s + unit.length s)
    (t := unit.first s + unit.length s - 1) (by omega)
    (by have := unit.lt_first_add_length (unit.first s + unit.length s); omega)
  have hnext := unit.lt_first_add_length (unit.first s + unit.length s)
  omega

/-- No unit begins between the first second of a unit and that of the next one. -/
theorem first_add_length_le (hstart : unit.first t = t) (h : unit.first s < t) :
    unit.first s + unit.length s ≤ t := by
  by_contra hlt
  have heq := (unit.eq_of_mem (s := s) (t := t) (by omega) (by omega)).1
  omega

end DateUnit

namespace Instant

variable {d e s t : Instant} {unit : DateUnit}

/-- Rounding down twice is rounding down once. -/
theorem startOf_startOf (hs : d.startOf unit = .ok s) : s.startOf unit = .ok s := by
  obtain ⟨hseconds, hnanos⟩ := startOf_eq_ok_iff.1 hs
  refine startOf_eq_ok_iff.2 ⟨?_, hnanos⟩
  rw [hseconds, (unit.eq_of_first d.seconds).1]

/-- Instants in one unit are rounded down alike. -/
theorem startOf_congr (h : unit.first e.seconds = unit.first d.seconds)
    (hs : d.startOf unit = .ok s) : e.startOf unit = .ok s := by
  obtain ⟨hseconds, hnanos⟩ := startOf_eq_ok_iff.1 hs
  exact startOf_eq_ok_iff.2 ⟨hseconds.trans h.symm, hnanos⟩

/-- Rounding up depends on the start of the unit alone. -/
theorem endOf_congr (h : d.startOf unit = e.startOf unit) : d.endOf unit = e.endOf unit := by
  rw [endOf, endOf, h]

/-- Rounding down goes to the first millisecond of the unit. -/
theorem millis_startOf (hs : d.startOf unit = .ok s) : s.millis = unit.first d.seconds * 1000 := by
  obtain ⟨hseconds, hnanos⟩ := startOf_eq_ok_iff.1 hs
  rw [millis, hseconds, hnanos]
  omega

/-- No unit ends in a leap second. -/
theorem not_inLeapSecond_endOf (ht : d.endOf unit = .ok t) : ¬ t.InLeapSecond := by
  obtain ⟨next, -, -, hmillis⟩ := exists_next_of_endOf ht
  exact (ofMillis?_eq_some_iff.1 hmillis).2.1

/-- An instant lies between the two roundings of another exactly if it has the same start. -/
theorem between_roundings_iff (hs : d.startOf unit = .ok s) (ht : d.endOf unit = .ok t)
    (hleap : ¬ e.InLeapSecond) :
    s.millis ≤ e.millis ∧ e.millis ≤ t.millis ↔ e.startOf unit = .ok s := by
  have hstart := millis_startOf hs
  have hend := millis_endOf ht
  unfold InLeapSecond nanosPerSecond at hleap
  constructor
  · rintro ⟨hle, hle'⟩
    unfold millis at *
    exact startOf_congr (unit.eq_of_mem (by omega) (by omega)).1 hs
  · intro he
    have hfirst : unit.first e.seconds = unit.first d.seconds :=
      (startOf_eq_ok_iff.1 he).1.symm.trans (startOf_eq_ok_iff.1 hs).1
    have hlength := unit.length_eq_of_first_eq hfirst
    have hle := unit.first_le e.seconds
    have hlt := unit.lt_first_add_length e.seconds
    unfold millis at *
    omega

/-- Outside leap seconds, rounding down keeps the order of instants. -/
theorem millis_startOf_mono {d' s' : Instant} (hleap : ¬ d.InLeapSecond)
    (hleap' : ¬ d'.InLeapSecond) (hs : d.startOf unit = .ok s) (hs' : d'.startOf unit = .ok s')
    (h : d.millis ≤ d'.millis) :
    s.millis ≤ s'.millis := by
  have hseconds : d.seconds ≤ d'.seconds := by
    unfold InLeapSecond nanosPerSecond at *
    unfold millis at h
    omega
  have hmono := unit.first_mono hseconds
  rw [millis_startOf hs, millis_startOf hs']
  omega

/-- A millisecond behind the end of a unit, the next unit begins. -/
theorem exists_next_start (hs : d.startOf unit = .ok s) (ht : d.endOf unit = .ok t) :
    ∃ next, ofMillis? (t.millis + 1) = some next ∧ next.startOf unit = .ok next ∧
      ∀ e : Instant, e.startOf unit = .ok e → s.millis < e.millis → next.millis ≤ e.millis := by
  obtain ⟨next, hseconds, hnanos, hmillis⟩ := exists_next_of_endOf ht
  have hstart : next.startOf unit = .ok next := by
    rw [startOf_eq_ok_iff, hseconds, unit.first_next]
    exact ⟨rfl, hnanos⟩
  have hnext : next.millis = t.millis + 1 := by
    rw [millis_of_ofMillis? hmillis]
    omega
  refine ⟨next, ?_, hstart, fun e he hlt => ?_⟩
  · rw [ofMillis?_eq_some_iff, InLeapSecond, hnanos]
    exact ⟨hnext, by decide, dvd_zero _⟩
  · obtain ⟨hfirst, -⟩ := startOf_eq_ok_iff.1 he
    rw [millis_startOf hs, millis_startOf he, ← hfirst] at hlt
    have hle := unit.first_add_length_le (s := d.seconds) hfirst.symm (by omega)
    rw [hnext, millis_endOf ht, millis_startOf he, ← hfirst]
    omega

/-- The two roundings of an instant to a unit are the first and the last millisecond of the unit
that it lies in. The instants between them are exactly those with the same start, and these have the
same end, so the units of one kind do not overlap. Both roundings are idempotent, the start of a
unit's end is the unit's start, rounding down keeps the order, and a millisecond behind the end of a
unit the next one begins: no unit begins between the two starts. -/
theorem rounding_partition (hleap : ¬ d.InLeapSecond) (hs : d.startOf unit = .ok s)
    (ht : d.endOf unit = .ok t) :
    (s.millis = unit.first d.seconds * 1000 ∧
      t.millis + 1 = (unit.first d.seconds + unit.length d.seconds) * 1000) ∧
    (s.millis ≤ d.millis ∧ d.millis ≤ t.millis) ∧
    (∀ e : Instant, ¬ e.InLeapSecond →
      (s.millis ≤ e.millis ∧ e.millis ≤ t.millis ↔ e.startOf unit = .ok s)) ∧
    (∀ e : Instant, e.startOf unit = .ok s → e.endOf unit = .ok t) ∧
    (s.startOf unit = .ok s ∧ t.endOf unit = .ok t ∧ t.startOf unit = .ok s) ∧
    (∀ e e' u u' : Instant, ¬ e.InLeapSecond → ¬ e'.InLeapSecond → e.startOf unit = .ok u →
      e'.startOf unit = .ok u' → e.millis ≤ e'.millis → u.millis ≤ u'.millis) ∧
    ∃ next, ofMillis? (t.millis + 1) = some next ∧ next.startOf unit = .ok next ∧
      ∀ e : Instant, e.startOf unit = .ok e → s.millis < e.millis → next.millis ≤ e.millis := by
  have hmem : s.millis ≤ d.millis ∧ d.millis ≤ t.millis := (between_roundings_iff hs ht hleap).2 hs
  have hsame (e : Instant) (he : e.startOf unit = .ok s) : e.endOf unit = .ok t :=
    (endOf_congr (he.trans hs.symm)).trans ht
  have hend : t.startOf unit = .ok s :=
    (between_roundings_iff hs ht (not_inLeapSecond_endOf ht)).1 ⟨hmem.1.trans hmem.2, le_rfl⟩
  exact ⟨⟨millis_startOf hs, millis_endOf ht⟩, hmem,
    fun e he => between_roundings_iff hs ht he, hsame,
    ⟨startOf_startOf hs, hsame t hend, hend⟩,
    fun e e' u u' he he' hu hu' => millis_startOf_mono he he' hu hu', exists_next_start hs ht⟩

/-- Half a second into the 1st of January 2025, a Wednesday. -/
def newYear : Instant where
  seconds := 1735689600
  nanos := 500000000

/-- The week of that day begins in the year before. -/
theorem rounding_partition_newYear :
    newYear.startOf .week = .ok { seconds := 1735516800, nanos := 0 } ∧
    newYear.endOf .week = .ok { seconds := 1736121599, nanos := 999000000 } ∧
    ∃ next, ofMillis? 1736121600000 = some next ∧ next.startOf .week = .ok next := by
  have hleap : ¬ newYear.InLeapSecond := by decide
  have hs : newYear.startOf .week = .ok { seconds := 1735516800, nanos := 0 } := by decide +kernel
  have ht : newYear.endOf .week = .ok { seconds := 1736121599, nanos := 999000000 } := by
    decide +kernel
  obtain ⟨-, -, -, -, -, -, next, hnext, hstart, -⟩ := rounding_partition hleap hs ht
  exact ⟨hs, ht, next, hnext, hstart⟩

end Instant

end SeriesQuery
