import Mathlib.Data.Rat.Floor
import SeriesQuery.Time.Instant

/-!
# Milliseconds of instants

Every number of milliseconds in the range of the calendar is that of an instant
(`millis_of_ofMillis?`, `ofMillis?_eq_none_iff`), and the milliseconds of an instant are a word
(`isWord_millis`). Its seconds are the ceiling of its milliseconds over a thousand
(`ceilSeconds_eq_ceil`).
-/

namespace SeriesQuery.Instant

variable {d : Instant} {seconds millis : ℤ} {nanos : ℕ}

/-- Seconds and nanoseconds make the one instant that has them. -/
theorem ofSeconds?_eq_some_iff :
    ofSeconds? seconds nanos = some d ↔ d.seconds = seconds ∧ d.nanos = nanos := by
  unfold ofSeconds?
  constructor
  · intro h
    split at h
    · split at h
      · cases h
        exact ⟨rfl, rfl⟩
      · cases h
    · cases h
  · rintro ⟨rfl, rfl⟩
    rw [dif_pos d.seconds_mem, dif_pos d.nanos_lt]

/-- Seconds are no instant's only outside the range of the calendar. -/
theorem ofSeconds?_eq_none_iff (hnanos : nanos < 2 * nanosPerSecond) :
    ofSeconds? seconds nanos = none ↔ seconds < firstSecond ∨ lastSecond < seconds := by
  unfold ofSeconds?
  split
  · exact ⟨nofun, fun _ => by omega⟩
  · exact ⟨fun _ => by omega, fun _ => rfl⟩

/-- The first millisecond that an instant can have. -/
def firstMilli : ℤ := firstSecond * 1000

/-- The last millisecond that an instant outside leap seconds can have. -/
def lastMilli : ℤ := lastSecond * 1000 + 999

/-- Milliseconds make the one instant of whole milliseconds outside leap seconds that has them. -/
theorem ofMillis?_eq_some_iff :
    ofMillis? millis = some d ↔ d.millis = millis ∧ ¬ d.InLeapSecond ∧ 1000000 ∣ d.nanos := by
  rw [ofMillis?, ofSeconds?_eq_some_iff]
  unfold Instant.millis InLeapSecond nanosPerSecond
  omega

/-- An instant made from milliseconds has these. -/
theorem millis_of_ofMillis? (h : ofMillis? millis = some d) : d.millis = millis :=
  (ofMillis?_eq_some_iff.1 h).1

/-- Milliseconds are no instant's only outside the range of the calendar. -/
theorem ofMillis?_eq_none_iff :
    ofMillis? millis = none ↔ millis < firstMilli ∨ lastMilli < millis := by
  have hnanos : (millis % 1000).toNat * 1000000 < 2 * nanosPerSecond := by
    unfold nanosPerSecond
    omega
  rw [ofMillis?, ofSeconds?_eq_none_iff hnanos]
  unfold firstMilli lastMilli firstSecond lastSecond
  omega

/-- The milliseconds of an instant stay far inside the range of words. -/
theorem millis_mem (d : Instant) : firstMilli ≤ d.millis ∧ d.millis ≤ lastMilli + 1000 := by
  obtain ⟨seconds, nanos, hseconds, hnanos⟩ := d
  unfold nanosPerSecond at hnanos
  unfold Instant.millis firstMilli lastMilli
  dsimp only
  omega

/-- The milliseconds of an instant are a word. -/
theorem isWord_millis (d : Instant) : IsWord d.millis := by
  have h := d.millis_mem
  unfold firstMilli lastMilli firstSecond lastSecond at h
  unfold IsWord
  omega

/-- Seconds are rounded up from milliseconds. -/
theorem ceilSeconds_eq_ceil (d : Instant) : d.ceilSeconds = ⌈(d.millis : ℚ) / 1000⌉ := by
  have h := Rat.ceil_intCast_div_natCast d.millis 1000
  push_cast at h
  rw [h, ceilSeconds]
  omega

end SeriesQuery.Instant
