import SeriesQuery.Proofs.Failure
import SeriesQuery.Proofs.Rounding

/-!
# Buckets

The width of a bucket is the ceiling of the scaled length of its duration
(`Duration.scaledSeconds_eq`), where a duration shorter than a second counts as one. Rounding keeps
whole numbers and the order, so a bucket is at least as wide as its factor says
(`le_of_bucketSeconds`), and neither a longer duration of the same unit nor a greater factor makes
it narrower (`exists_bucketSeconds_le`).
-/

namespace SeriesQuery

theorem ceil_eq (q : ℚ) : q.ceil = ⌈q⌉ :=
  eq_of_forall_ge_iff fun _ => Rat.ceil_le_iff.trans Int.ceil_le.symm

/-- No unit is shorter than nothing. -/
theorem DurationUnit.seconds_nonneg (unit : DurationUnit) : 0 ≤ unit.seconds := by
  cases unit with
  | millisecond | month | year => exact round53_nonneg _
  | second | minute | hour | day | week =>
    rw [DurationUnit.seconds]
    norm_num

namespace Duration

variable {d d' : Duration} {factor factor' : ℕ}

/-- The scaled length in seconds, before it is taken up to a whole number. -/
def scaled (d : Duration) (factor : ℕ) : ℚ := round53 (max 1 d.seconds * factor)

/-- The seconds of a bucket are the ceiling of the scaled length. -/
theorem scaledSeconds_eq (d : Duration) (factor : ℕ) :
    d.scaledSeconds factor = ⌈d.scaled factor⌉ := by
  have hmax : (if d.seconds < 1 then 1 else d.seconds) = max 1 d.seconds := by
    split
    · next h => rw [max_eq_left h.le]
    · next h => rw [max_eq_right (not_lt.1 h)]
  rw [scaledSeconds, hmax, ceil_eq]
  rfl

/-- A factor that 53 digits can hold is a lower bound for what it scales. -/
theorem le_scaledSeconds (d : Duration) (hfactor : factor ≤ 2 ^ 53) :
    (factor : ℤ) ≤ d.scaledSeconds factor := by
  have hone : (factor : ℚ) ≤ max 1 d.seconds * factor :=
    le_mul_of_one_le_left (Nat.cast_nonneg factor) (le_max_left ..)
  have hscaled : (factor : ℚ) ≤ d.scaled factor := by
    rw [← (isBinary53_natCast hfactor).round53_eq]
    exact round53_mono hone
  rw [scaledSeconds_eq]
  exact_mod_cast hscaled.trans (Int.le_ceil _)

/-- Of one unit, more is not shorter. -/
theorem seconds_mono (hunit : d.unit = d'.unit) (h : d.magnitude ≤ d'.magnitude) :
    d.seconds ≤ d'.seconds := by
  refine round53_mono ?_
  rw [hunit]
  exact mul_le_mul_of_nonneg_right (round53_mono (Nat.cast_le.2 h)) d'.unit.seconds_nonneg

/-- A longer duration and a larger factor do not give a narrower bucket. -/
theorem scaledSeconds_mono (hunit : d.unit = d'.unit) (h : d.magnitude ≤ d'.magnitude)
    (hfactor : factor ≤ factor') : d.scaledSeconds factor ≤ d'.scaledSeconds factor' := by
  have hseconds := seconds_mono hunit h
  rw [scaledSeconds_eq, scaledSeconds_eq]
  refine Int.ceil_mono (round53_mono ?_)
  gcongr

end Duration

variable {s s' : Text} {d d' : Duration} {factor factor' : UInt32} {c c' : ℤ}

/-- A factor of 32 bits has no more than 53 digits. -/
theorem toNat_factor_le (factor : UInt32) : factor.toNat ≤ 2 ^ 53 := by
  have := factor.toNat_lt
  omega

/-- The width of a bucket is the scaled length of the duration in the text, if that is a word. -/
theorem bucketSeconds_eq_ok_iff : bucketSeconds s factor = .ok c ↔
    ∃ d, Duration.find s = .ok d ∧ c = d.scaledSeconds factor.toNat ∧ IsWord c := by
  unfold bucketSeconds
  rw [bind_eq_ok_iff]
  refine exists_congr fun d => and_congr_right fun _ => ?_
  dsimp only
  split
  · next h => exact ⟨fun he => by cases he; exact ⟨rfl, h⟩, fun ⟨he, _⟩ => he ▸ rfl⟩
  · next h => exact ⟨nofun, fun ⟨he, hword⟩ => absurd (he ▸ hword) h⟩

/-- A bucket is at least as many seconds wide as its factor says. -/
theorem le_of_bucketSeconds (h : bucketSeconds s factor = .ok c) : (factor.toNat : ℤ) ≤ c := by
  obtain ⟨d, -, rfl, -⟩ := bucketSeconds_eq_ok_iff.1 h
  exact d.le_scaledSeconds (toNat_factor_le factor)

/-- A bucket has a width unless its factor is zero. -/
theorem bucketSeconds_pos (hfactor : 0 < factor.toNat) (h : bucketSeconds s factor = .ok c) :
    0 < c := by
  have hle := le_of_bucketSeconds h
  omega

/-- Where a duration has a width, one of the same unit that is not longer has one with a factor that
is not greater, and it is not wider. -/
theorem exists_bucketSeconds_le (hd : Duration.find s = .ok d) (hd' : Duration.find s' = .ok d')
    (hunit : d.unit = d'.unit) (hmagnitude : d.magnitude ≤ d'.magnitude)
    (hfactor : factor ≤ factor') (h : bucketSeconds s' factor' = .ok c') :
    ∃ c, bucketSeconds s factor = .ok c ∧ c ≤ c' := by
  obtain ⟨_, he, rfl, hword⟩ := bucketSeconds_eq_ok_iff.1 h
  cases hd'.symm.trans he
  have hle := Duration.scaledSeconds_mono hunit hmagnitude (UInt32.le_iff_toNat_le.1 hfactor)
  have hlower := d.le_scaledSeconds (toNat_factor_le factor)
  refine ⟨_, bucketSeconds_eq_ok_iff.2 ⟨d, hd, rfl, ?_⟩, hle⟩
  unfold IsWord at *
  omega

end SeriesQuery
