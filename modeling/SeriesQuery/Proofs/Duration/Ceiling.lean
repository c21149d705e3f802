import SeriesQuery.Proofs.Duration

/-!
# Widths against the exact ceiling

The width of a bucket is meant to be the scaled length of its duration, rounded up. It is reckoned
with 53 digits, which hold whole numbers of seconds (`scaled_of_whole`) and eighths of a second
(`scaled_of_dvd`), but not a millisecond. `abs_scaled_sub_le` bounds what this does to the scaled
length, `ceil_scaled_of_lt` says when the ceiling is one second too large, and `bucketSeconds_ceil`
puts these together. There are widths that are too large: `bucketSeconds_ceil_missed`. For products
of 2⁵¹ milliseconds and more, a width can also be too small.
-/

namespace SeriesQuery

open Text

/-- The exact length in seconds of the units of fixed length. -/
def DurationUnit.exactSeconds? : DurationUnit → Option ℚ
  | millisecond => some (1 / 1000)
  | second => some 1
  | minute => some 60
  | hour => some 3600
  | day => some 86400
  | week => some 604800
  | month | year => none

/-- The units of fixed length other than the millisecond are whole numbers of seconds. -/
theorem DurationUnit.exists_nat_of_exactSeconds? {unit : DurationUnit} {u : ℚ}
    (h : unit.exactSeconds? = some u) (hne : unit ≠ .millisecond) :
    ∃ k : ℕ, 0 < k ∧ unit.seconds = k ∧ u = k := by
  refine ⟨unit.seconds.num.toNat, ?_⟩
  cases unit with
  | millisecond => exact absurd rfl hne
  | second | minute | hour | day | week =>
    obtain rfl := Option.some.inj h
    decide +kernel
  | month | year => cases h

namespace Duration

variable {d : Duration} {u : ℚ} {factor : ℕ}

/-- The exact length after scaling, where a unit is `u` seconds long. -/
def exactScaled (d : Duration) (u : ℚ) (factor : ℕ) : ℚ := max 1 (d.magnitude * u) * factor

/-- Nothing is left of a duration that is scaled by zero. -/
theorem scaled_zero (d : Duration) (u : ℚ) : d.scaled 0 = d.exactScaled u 0 := by
  rw [scaled, exactScaled, Nat.cast_zero, mul_zero, mul_zero]
  rfl

/-! ## Whole seconds -/

/-- Whole numbers of seconds are scaled exactly. -/
theorem scaled_of_whole {k : ℕ} (hk : 0 < k) (hunit : d.unit.seconds = k)
    (hbound : d.exactScaled k factor < 2 ^ 53) : d.scaled factor = d.exactScaled k factor := by
  rcases Nat.eq_zero_or_pos factor with rfl | hfactor
  · exact d.scaled_zero k
  · have hexact : d.exactScaled k factor = (max 1 (d.magnitude * k) * factor : ℕ) := by
      rw [exactScaled]
      push_cast
      rfl
    rw [hexact] at hbound ⊢
    have hproduct : max 1 (d.magnitude * k) * factor < 2 ^ 53 := by exact_mod_cast hbound
    have hlength : max 1 (d.magnitude * k) < 2 ^ 53 :=
      (Nat.le_mul_of_pos_right _ hfactor).trans_lt hproduct
    have hmagnitude : d.magnitude ≤ d.magnitude * k := Nat.le_mul_of_pos_right _ hk
    have hseconds : d.seconds = (d.magnitude * k : ℕ) := by
      rw [seconds, hunit, (isBinary53_natCast (by omega)).round53_eq, ← Nat.cast_mul]
      exact (isBinary53_natCast (by omega)).round53_eq
    rw [scaled, hseconds, ← Nat.cast_one, ← Nat.cast_max, ← Nat.cast_mul]
    exact (isBinary53_natCast hproduct.le).round53_eq

/-! ## Milliseconds -/

/-- A millisecond with 53 digits is longer than an exact one, if only by little. -/
theorem seconds_millisecond :
    DurationUnit.millisecond.seconds = 1 / 1000 * (1 + 24 / 2 ^ 60) := by
  have hvalue : round53 (1 / 1000) = 1152921504606847 / 2 ^ 60 := by decide +kernel
  rw [DurationUnit.seconds, hvalue]
  norm_num

/-- A second in milliseconds. -/
def thousandth : Duration := ⟨1000, .millisecond, by decide⟩

/-- A thousand milliseconds are a second, with 53 digits too. -/
theorem seconds_thousandth : thousandth.seconds = 1 := by decide +kernel

/-- A duration of at most a second is scaled exactly. -/
theorem scaled_of_le_thousand (hunit : d.unit = .millisecond) (h : d.magnitude ≤ 1000)
    (hfactor : factor ≤ 2 ^ 53) : d.scaled factor = d.exactScaled (1 / 1000) factor := by
  have hmagnitude : (d.magnitude : ℚ) ≤ 1000 := by exact_mod_cast h
  have hseconds : d.seconds ≤ 1 := by
    rw [← seconds_thousandth]
    exact seconds_mono hunit h
  rw [scaled, exactScaled, max_eq_left hseconds, max_eq_left (by linarith), one_mul]
  exact (isBinary53_natCast hfactor).round53_eq

/-- The length in seconds is off by three roundings, that of the millisecond included. -/
theorem seconds_mem (hunit : d.unit = .millisecond) :
    d.magnitude * (1 / 1000) * (1 - 1 / 2 ^ 53) ^ 2 ≤ d.seconds ∧
      d.seconds ≤ d.magnitude * (1 / 1000) * ((1 + 1 / 2 ^ 53) ^ 2 * (1 + 24 / 2 ^ 60)) := by
  have hrounded := round53_nonneg d.magnitude
  obtain ⟨hlower, hupper⟩ := round53_mem (Nat.cast_nonneg (α := ℚ) d.magnitude)
  obtain ⟨hlower', hupper'⟩ :=
    round53_mem (mul_nonneg hrounded DurationUnit.millisecond.seconds_nonneg)
  have hmillisecond : 1 / 1000 ≤ DurationUnit.millisecond.seconds := by
    rw [seconds_millisecond]
    norm_num
  rw [seconds, hunit]
  constructor
  · calc (d.magnitude * (1 / 1000) * (1 - 1 / 2 ^ 53) ^ 2 : ℚ)
        = d.magnitude * (1 - 1 / 2 ^ 53) * (1 / 1000) * (1 - 1 / 2 ^ 53) := by ring
      _ ≤ round53 d.magnitude * DurationUnit.millisecond.seconds * (1 - 1 / 2 ^ 53) := by
        gcongr
      _ ≤ _ := hlower'
  · calc round53 (round53 d.magnitude * DurationUnit.millisecond.seconds)
        ≤ round53 d.magnitude * DurationUnit.millisecond.seconds * (1 + 1 / 2 ^ 53) := hupper'
      _ ≤ d.magnitude * (1 + 1 / 2 ^ 53) * (1 / 1000 * (1 + 24 / 2 ^ 60)) * (1 + 1 / 2 ^ 53) := by
        rw [seconds_millisecond]
        gcongr
      _ = _ := by ring

/-- Four times 53 digits are taken, which moves the result by the part 2⁻⁵¹ of it at most. -/
theorem abs_scaled_sub_le (hunit : d.unit = .millisecond) (hfactor : factor ≤ 2 ^ 53) :
    |d.scaled factor - d.exactScaled (1 / 1000) factor| ≤
      d.exactScaled (1 / 1000) factor / 2 ^ 51 := by
  rcases le_total d.magnitude 1000 with hshort | hlong
  · have hnonneg : 0 ≤ d.exactScaled (1 / 1000) factor := by
      rw [exactScaled]
      positivity
    rw [scaled_of_le_thousand hunit hshort hfactor, sub_self, abs_zero]
    positivity
  · have hmagnitude : (1000 : ℚ) ≤ d.magnitude := by exact_mod_cast hlong
    have hseconds : 1 ≤ d.seconds := by
      rw [← seconds_thousandth]
      exact seconds_mono hunit.symm hlong
    obtain ⟨hlower, hupper⟩ := seconds_mem hunit
    obtain ⟨hlower', hupper'⟩ :=
      round53_mem (mul_nonneg (zero_le_one.trans hseconds) (Nat.cast_nonneg (α := ℚ) factor))
    rw [scaled, exactScaled, max_eq_right hseconds, max_eq_right (by linarith)]
    set x : ℚ := d.magnitude * (1 / 1000) with hx
    have hxnonneg : 0 ≤ x * factor := by positivity
    have hbelow : x * factor * (1 - 1 / 2 ^ 51) ≤ round53 (d.seconds * factor) :=
      calc x * factor * (1 - 1 / 2 ^ 51)
          ≤ x * factor * (1 - 1 / 2 ^ 53) ^ 3 := by
            gcongr
            norm_num
        _ = x * (1 - 1 / 2 ^ 53) ^ 2 * factor * (1 - 1 / 2 ^ 53) := by ring
        _ ≤ d.seconds * factor * (1 - 1 / 2 ^ 53) := by
            gcongr
        _ ≤ round53 (d.seconds * factor) := hlower'
    have habove : round53 (d.seconds * factor) ≤ x * factor * (1 + 1 / 2 ^ 51) :=
      calc round53 (d.seconds * factor) ≤ d.seconds * factor * (1 + 1 / 2 ^ 53) := hupper'
        _ ≤ x * ((1 + 1 / 2 ^ 53) ^ 2 * (1 + 24 / 2 ^ 60)) * factor * (1 + 1 / 2 ^ 53) := by
            gcongr
        _ = x * factor * ((1 + 1 / 2 ^ 53) ^ 3 * (1 + 24 / 2 ^ 60)) := by ring
        _ ≤ x * factor * (1 + 1 / 2 ^ 51) := by
            gcongr
            norm_num
    rw [abs_le]
    constructor <;> linarith

/-- Eighths of a second are a number of milliseconds that 53 digits can hold as seconds. -/
theorem scaled_of_eighths (hunit : d.unit = .millisecond) {m : ℕ} (hm : d.magnitude = 125 * m)
    (hmagnitude : d.magnitude ≤ 2 ^ 53) (hscaled : max 8 m * factor ≤ 2 ^ 53) :
    d.scaled factor = d.exactScaled (1 / 1000) factor := by
  have heighth (k : ℕ) : (k : ℚ) / 8 = k * 2 ^ (-3 : ℤ) := by norm_num [div_eq_mul_inv]
  have hlength : (d.magnitude : ℚ) * (1 / 1000) = m / 8 := by
    rw [hm]
    push_cast
    ring
  have hseconds : d.seconds = m / 8 := by
    have hproduct : (d.magnitude : ℚ) * DurationUnit.millisecond.seconds =
        m / 8 + m / 8 * (24 / 2 ^ 60) := by
      rw [seconds_millisecond, ← mul_assoc, hlength]
      ring
    have hnonneg : (0 : ℚ) ≤ m / 8 := by positivity
    have hbinary : IsBinary53 (m / 8 : ℚ) := by
      rw [heighth]
      exact isBinary53_of_le (by omega) (-3)
    rw [seconds, hunit, (isBinary53_natCast hmagnitude).round53_eq, hproduct]
    refine hbinary.round53_eq_of_near ?_ ?_
    · linarith
    · linarith
  have hexact : d.exactScaled (1 / 1000) factor = ((max 8 m * factor : ℕ) : ℚ) / 8 := by
    rw [exactScaled, hlength]
    push_cast
    rcases le_total 8 (m : ℚ) with h | h
    · rw [max_eq_right h, max_eq_right (by linarith)]
      ring
    · rw [max_eq_left h, max_eq_left (by linarith)]
      ring
  have hbinary : IsBinary53 (d.exactScaled (1 / 1000) factor) := by
    rw [hexact, heighth]
    exact isBinary53_of_le hscaled (-3)
  rw [scaled, hseconds, ← hlength]
  exact hbinary.round53_eq

/-- The ceiling of a number next to a whole one. -/
theorem ceil_of_near_whole {k : ℕ} {x : ℚ} (h : |x - k| < 1 / 1000) :
    ⌈x⌉ = if (k : ℚ) < x then (k : ℤ) + 1 else k := by
  obtain ⟨hlower, hupper⟩ := abs_lt.1 h
  split
  · next habove =>
    refine Int.ceil_eq_iff.2 ?_
    push_cast
    constructor <;> linarith
  · next habove =>
    have hle := not_lt.1 habove
    refine Int.ceil_eq_iff.2 ?_
    push_cast
    constructor <;> linarith

/-- The ceiling of a number next to one with thousandths. -/
theorem ceil_of_near_fraction {k r : ℕ} {x : ℚ} (hr : 0 < r) (hr' : r < 1000)
    (h : |x - (k + r * (1 / 1000))| < 1 / 1000) : ⌈x⌉ = (k : ℤ) + 1 := by
  obtain ⟨hlower, hupper⟩ := abs_lt.1 h
  have hone : (1 : ℚ) ≤ r := by exact_mod_cast hr
  have hless : (r : ℚ) ≤ 999 := by exact_mod_cast Nat.le_of_lt_succ hr'
  refine Int.ceil_eq_iff.2 ?_
  push_cast
  constructor <;> linarith

/-- The ceiling of a number that is nearer than a thousandth to a number of thousandths is the
ceiling of that, or one more if that is a whole number and below it. -/
theorem ceil_of_near {n : ℕ} {x : ℚ} (h : |x - n * (1 / 1000)| < 1 / 1000) :
    ⌈x⌉ = if 1000 ∣ n ∧ n * (1 / 1000) < x then ⌈(n * (1 / 1000) : ℚ)⌉ + 1
      else ⌈(n * (1 / 1000) : ℚ)⌉ := by
  obtain ⟨k, r, hr, rfl⟩ : ∃ k r, r < 1000 ∧ n = 1000 * k + r :=
    ⟨n / 1000, n % 1000, Nat.mod_lt n (by decide), (Nat.div_add_mod n 1000).symm⟩
  have hparts : ((1000 * k + r : ℕ) * (1 / 1000) : ℚ) = k + r * (1 / 1000) := by
    push_cast
    ring
  rw [hparts] at h ⊢
  rcases Nat.eq_zero_or_pos r with rfl | hpos
  · simp only [Nat.cast_zero, zero_mul, add_zero] at h ⊢
    rw [Int.ceil_natCast, ceil_of_near_whole h]
    simp only [Nat.dvd_mul_right, true_and]
  · have hndvd : ¬ 1000 ∣ 1000 * k + r := by omega
    have hself : |(k + r * (1 / 1000) : ℚ) - (k + r * (1 / 1000))| < 1 / 1000 := by norm_num
    rw [if_neg fun hdvd => hndvd hdvd.1, ceil_of_near_fraction hpos hr h,
      ceil_of_near_fraction hpos hr hself]

/-- As long as the product is short of 2⁵¹ milliseconds, the result is the exact ceiling, or one
second more where the exact result is a whole number and the product comes out above it. -/
theorem ceil_scaled_of_lt (hunit : d.unit = .millisecond) (hfactor : factor ≤ 2 ^ 53)
    (hproduct : d.magnitude * factor < 2 ^ 51) :
    ⌈d.scaled factor⌉ =
      if 1000 ∣ d.magnitude * factor ∧ d.exactScaled (1 / 1000) factor < d.scaled factor then
        ⌈d.exactScaled (1 / 1000) factor⌉ + 1
      else ⌈d.exactScaled (1 / 1000) factor⌉ := by
  rcases le_total d.magnitude 1000 with hshort | hlong
  · rw [scaled_of_le_thousand hunit hshort hfactor, if_neg fun h => lt_irrefl _ h.2]
  · have hmagnitude : (1000 : ℚ) ≤ d.magnitude := by exact_mod_cast hlong
    have hexact : d.exactScaled (1 / 1000) factor = (d.magnitude * factor : ℕ) * (1 / 1000) := by
      rw [exactScaled, max_eq_right (by linarith)]
      push_cast
      ring
    have hnear := abs_scaled_sub_le hunit hfactor
    have hbound : ((d.magnitude * factor : ℕ) : ℚ) < 2 ^ 51 := by exact_mod_cast hproduct
    rw [hexact] at hnear ⊢
    exact ceil_of_near (hnear.trans_lt (by linarith))

/-- Eighths of a second are scaled exactly, as long as the product is short of 2⁵¹ milliseconds. -/
theorem scaled_of_dvd (hunit : d.unit = .millisecond) (hfactor : factor < 2 ^ 32)
    (hproduct : d.magnitude * factor < 2 ^ 51) (hdvd : 125 ∣ d.magnitude) :
    d.scaled factor = d.exactScaled (1 / 1000) factor := by
  rcases Nat.eq_zero_or_pos factor with rfl | hpos
  · exact d.scaled_zero (1 / 1000)
  · obtain ⟨m, hm⟩ := hdvd
    have hmagnitude : d.magnitude ≤ d.magnitude * factor := Nat.le_mul_of_pos_right _ hpos
    refine scaled_of_eighths hunit hm (by omega) ?_
    rcases le_total 8 m with h | h
    · have hle : m * factor ≤ d.magnitude * factor := Nat.mul_le_mul_right _ (by omega)
      rw [max_eq_right h]
      omega
    · rw [max_eq_left h]
      omega

/-- The ceiling is exact for eighths of a second, and where no factor brings the parts of a second
together to whole ones. -/
theorem ceil_scaled_eq (hunit : d.unit = .millisecond) (hfactor : factor < 2 ^ 32)
    (hproduct : d.magnitude * factor < 2 ^ 51) (h : 125 ∣ d.magnitude ∨ factor ≤ 1) :
    ⌈d.scaled factor⌉ = ⌈d.exactScaled (1 / 1000) factor⌉ := by
  rw [ceil_scaled_of_lt hunit (by omega) hproduct]
  refine if_neg ?_
  rintro ⟨hwhole, hlt⟩
  have heighths (hdvd : 125 ∣ d.magnitude) : False := by
    rw [scaled_of_dvd hunit hfactor hproduct hdvd] at hlt
    exact lt_irrefl _ hlt
  rcases h with hdvd | hone
  · exact heighths hdvd
  · rcases Nat.le_one_iff_eq_zero_or_eq_one.1 hone with rfl | rfl
    · rw [d.scaled_zero (1 / 1000)] at hlt
      exact lt_irrefl _ hlt
    · exact heighths (by omega)

/-! ## Widths -/

theorem eq_of_exactSeconds? (hunit : d.unit.exactSeconds? = some u)
    (hmillisecond : d.unit = .millisecond) : 1 / 1000 = u := by
  rw [hmillisecond] at hunit
  exact Option.some.inj hunit

/-- Durations in all other units are scaled exactly. -/
theorem scaled_of_ne_millisecond (hunit : d.unit.exactSeconds? = some u)
    (hmillisecond : d.unit ≠ .millisecond) (hbound : d.exactScaled u factor < 2 ^ 53) :
    d.scaled factor = d.exactScaled u factor := by
  obtain ⟨k, hk, hseconds, rfl⟩ := DurationUnit.exists_nat_of_exactSeconds? hunit hmillisecond
  exact scaled_of_whole hk hseconds hbound

/-- However long, the result is fewer than four seconds off. -/
theorem abs_scaled_sub_lt (hunit : d.unit.exactSeconds? = some u) (hfactor : factor ≤ 2 ^ 53)
    (hbound : d.exactScaled u factor < 2 ^ 53) :
    |d.scaled factor - d.exactScaled u factor| < 4 := by
  by_cases hmillisecond : d.unit = .millisecond
  · obtain rfl := eq_of_exactSeconds? hunit hmillisecond
    exact (abs_scaled_sub_le hmillisecond hfactor).trans_lt (by linarith)
  · rw [scaled_of_ne_millisecond hunit hmillisecond hbound, sub_self, abs_zero]
    norm_num

/-- Ceilings are as near to each other as the numbers. -/
theorem abs_ceil_sub_ceil_le {x y : ℚ} {k : ℤ} (h : |y - x| < k) : |⌈y⌉ - ⌈x⌉| ≤ k := by
  obtain ⟨hlower, hupper⟩ := abs_lt.1 h
  have hx := Int.le_ceil x
  have hy := Int.le_ceil y
  have hxy : ⌈x⌉ ≤ ⌈y⌉ + k := by
    refine Int.ceil_le.2 ?_
    push_cast
    linarith
  have hyx : ⌈y⌉ ≤ ⌈x⌉ + k := by
    refine Int.ceil_le.2 ?_
    push_cast
    linarith
  rw [abs_le]
  constructor <;> linarith

/-- The result is a word. -/
theorem isWord_ceil_scaled (hunit : d.unit.exactSeconds? = some u) (hfactor : factor ≤ 2 ^ 53)
    (hbound : d.exactScaled u factor < 2 ^ 53) : IsWord ⌈d.scaled factor⌉ := by
  have hnonneg : 0 ≤ ⌈d.scaled factor⌉ := Int.ceil_nonneg (round53_nonneg _)
  have hnear := (abs_lt.1 (abs_scaled_sub_lt hunit hfactor hbound)).2
  have hle : ⌈d.scaled factor⌉ ≤ 2 ^ 53 + 4 := by
    refine Int.ceil_le.2 ?_
    push_cast
    linarith
  unfold IsWord
  omega

end Duration

/-- Where the exact length of a duration, scaled by a factor, is below 2⁵³ seconds, the width of a
bucket is its exact ceiling, for all units but milliseconds and up to a thousand of these. For more
milliseconds the ceiling is missed by four seconds at most. As long as their product with the factor
is below 2⁵¹, the width is the exact ceiling or one second more. It is one more exactly if the
product is a whole number of seconds that the rounded product is above, which never happens for
multiples of 125 milliseconds and never without a factor. -/
theorem bucketSeconds_ceil {s : Text} {d : Duration} {u : ℚ} {factor : UInt32}
    (hfind : Duration.find s = .ok d) (hunit : d.unit.exactSeconds? = some u)
    (hbound : d.exactScaled u factor.toNat < 2 ^ 53) :
    ∃ c, bucketSeconds s factor = .ok c ∧
      (d.unit ≠ .millisecond ∨ d.magnitude ≤ 1000 → c = ⌈d.exactScaled u factor.toNat⌉) ∧
      (d.magnitude * factor.toNat < 2 ^ 51 →
        (c = if 1000 ∣ d.magnitude * factor.toNat ∧
              d.exactScaled u factor.toNat < d.scaled factor.toNat then
            ⌈d.exactScaled u factor.toNat⌉ + 1
          else ⌈d.exactScaled u factor.toNat⌉) ∧
        (125 ∣ d.magnitude ∨ factor.toNat ≤ 1 → c = ⌈d.exactScaled u factor.toNat⌉)) ∧
      |c - ⌈d.exactScaled u factor.toNat⌉| ≤ 4 := by
  have hfactor := toNat_factor_le factor
  have hnear : |d.scaled factor.toNat - d.exactScaled u factor.toNat| < (4 : ℤ) :=
    Duration.abs_scaled_sub_lt hunit hfactor hbound
  have hwidth : bucketSeconds s factor = .ok ⌈d.scaled factor.toNat⌉ :=
    bucketSeconds_eq_ok_iff.2 ⟨d, hfind, (d.scaledSeconds_eq _).symm,
      Duration.isWord_ceil_scaled hunit hfactor hbound⟩
  refine ⟨_, hwidth, ?_, ?_, Duration.abs_ceil_sub_ceil_le hnear⟩
  all_goals by_cases hmillisecond : d.unit = .millisecond
  · intro h
    obtain rfl := Duration.eq_of_exactSeconds? hunit hmillisecond
    rw [Duration.scaled_of_le_thousand hmillisecond (h.resolve_left (absurd hmillisecond)) hfactor]
  · intro _
    rw [Duration.scaled_of_ne_millisecond hunit hmillisecond hbound]
  · intro hproduct
    obtain rfl := Duration.eq_of_exactSeconds? hunit hmillisecond
    exact ⟨Duration.ceil_scaled_of_lt hmillisecond hfactor hproduct,
      Duration.ceil_scaled_eq hmillisecond factor.toNat_lt hproduct⟩
  · intro _
    rw [Duration.scaled_of_ne_millisecond hunit hmillisecond hbound]
    exact ⟨(if_neg fun h => lt_irrefl _ h.2).symm, fun _ => rfl⟩

/-- Two and a half seconds in milliseconds. -/
def Duration.eighths : Duration := ⟨2500, .millisecond, by decide⟩

/-- Three times two and a half seconds are rounded up exactly. -/
theorem bucketSeconds_ceil_eighths :
    Duration.find "2500ms".toList = .ok .eighths ∧
    Duration.eighths.exactScaled (1 / 1000) 3 < 2 ^ 53 ∧
    ∃ c, bucketSeconds "2500ms".toList 3 = .ok c ∧
      c = ⌈Duration.eighths.exactScaled (1 / 1000) 3⌉ := by
  have hfind : Duration.find "2500ms".toList = .ok .eighths := by decide +kernel
  have hbound : Duration.eighths.exactScaled (1 / 1000) (3 : UInt32).toNat < 2 ^ 53 := by
    decide +kernel
  obtain ⟨c, hc, -, hproduct, -⟩ := bucketSeconds_ceil hfind rfl hbound
  exact ⟨hfind, hbound, c, hc, (hproduct (by decide)).2 (.inl (by decide))⟩

/-- Seven fifths of a second. -/
def Duration.fifths : Duration := ⟨1400, .millisecond, by decide⟩

/-- Five times seven fifths of a second are seven seconds, but the bucket is eight seconds wide. -/
theorem bucketSeconds_ceil_missed :
    Duration.find "1400ms".toList = .ok .fifths ∧ Duration.fifths.exactScaled (1 / 1000) 5 = 7 ∧
    ⌈Duration.fifths.exactScaled (1 / 1000) 5⌉ = 7 ∧ bucketSeconds "1400ms".toList 5 = .ok 8 := by
  have hexact : Duration.fifths.exactScaled (1 / 1000) 5 = 7 := by decide +kernel
  refine ⟨by decide +kernel, hexact, ?_, by decide +kernel⟩
  rw [hexact]
  exact Int.ceil_ofNat 7

/-- Past 2⁵³ milliseconds the magnitude itself is rounded, here down to whole seconds: the bucket is
a second narrower than the exact ceiling. -/
example : (9007199254741001 / 1000 : ℚ).ceil = 9007199254742 ∧
    bucketSeconds "9007199254741001ms".toList 1 = .ok 9007199254741 := by decide +kernel

end SeriesQuery
