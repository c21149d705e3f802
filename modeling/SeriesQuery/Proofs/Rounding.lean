import Mathlib.Algebra.Order.Field.Rat
import Mathlib.Algebra.Order.Field.Power
import Mathlib.Data.Rat.Floor
import Mathlib.Tactic.Linarith
import SeriesQuery.Rounding

/-!
# Rounding to the nearest

A positive rational lies between the power of two of its exponent and the next one
(`zpow_binaryExponent_le`, `lt_zpow_binaryExponent_succ`), so its `ulp` is the distance between the
numbers of 53 binary digits around it. `round53` leads to a number of 53 digits
(`isBinary53_round53`), and none of these is nearer (`abs_sub_round53_le`). Everything else follows
from that without a look at the digits: numbers of 53 digits stay as they are
(`IsBinary53.round53_eq`) and take in what lies just above them (`IsBinary53.round53_eq_of_near`),
the order is kept (`round53_mono`), and a number changes by no more than the part 2⁻⁵³ of it
(`abs_sub_round53_le_div`).
-/

namespace SeriesQuery

/-! ## The exponent -/

/-- The power of two of the exponent is not above the number. -/
theorem zpow_binaryExponent_le {q : ℚ} (hq : 0 < q) : (2 : ℚ) ^ binaryExponent q ≤ q := by
  unfold binaryExponent
  dsimp only
  split
  · -- The numerator is at least a power of two, and the denominator is below the next one.
    have hnum : (2 : ℚ) ^ (q.num.toNat.log2 : ℤ) ≤ q.num := by
      have hne : q.num.toNat ≠ 0 := by
        have := Rat.num_pos.2 hq
        omega
      have hlog : ((2 ^ q.num.toNat.log2 : ℕ) : ℤ) ≤ q.num := by
        have := Nat.log2_self_le hne
        omega
      rw [zpow_natCast]
      exact_mod_cast hlog
    have hden : (q.den : ℚ) ≤ 2 ^ ((q.den.log2 : ℤ) + 1) := by
      have hlog : q.den ≤ 2 ^ (q.den.log2 + 1) := Nat.lt_log2_self.le
      exact_mod_cast hlog
    have hpos : (0 : ℚ) < q.den := by exact_mod_cast q.den_pos
    calc (2 : ℚ) ^ ((q.num.toNat.log2 : ℤ) - q.den.log2 - 1)
        = 2 ^ (q.num.toNat.log2 : ℤ) / 2 ^ ((q.den.log2 : ℤ) + 1) := by
          rw [← zpow_sub₀ two_ne_zero, sub_sub]
      _ ≤ q.num / q.den := by gcongr
      _ = q := q.num_div_den
  · next h => exact not_lt.1 h

/-- The power of two above the exponent is above the number. -/
theorem lt_zpow_binaryExponent_succ (q : ℚ) : q < 2 ^ (binaryExponent q + 1) := by
  unfold binaryExponent
  dsimp only
  split
  · next h => rwa [Int.sub_add_cancel]
  · -- The numerator is below a power of two, and the denominator is at least the one before.
    have hnum : (q.num : ℚ) < 2 ^ ((q.num.toNat.log2 : ℤ) + 1) := by
      have hlog : q.num < ((2 ^ (q.num.toNat.log2 + 1) : ℕ) : ℤ) := by
        have := Nat.lt_log2_self (n := q.num.toNat)
        omega
      exact_mod_cast hlog
    have hden : (2 : ℚ) ^ (q.den.log2 : ℤ) ≤ q.den := by
      rw [zpow_natCast]
      exact_mod_cast Nat.log2_self_le q.den_nz
    calc q = q.num / q.den := q.num_div_den.symm
      _ < 2 ^ ((q.num.toNat.log2 : ℤ) + 1) / 2 ^ (q.den.log2 : ℤ) := by gcongr
      _ = 2 ^ ((q.num.toNat.log2 : ℤ) - q.den.log2 + 1) := by
        rw [← zpow_sub₀ two_ne_zero]
        congr 1
        omega

/-! ## The nearest integer -/

/-- The nearest integer is half a unit away at most. -/
theorem abs_sub_roundHalfEven_le_half (q : ℚ) : |q - roundHalfEven q| ≤ 1 / 2 := by
  have hfloor := Rat.floor_le q
  have hnext := Rat.lt_floor_add_one q
  push_cast at hnext
  unfold roundHalfEven
  dsimp only
  rw [abs_le]
  split
  · constructor <;> linarith
  · split
    · push_cast
      constructor <;> linarith
    · have hhalf : q - q.floor = 1 / 2 := by linarith
      rcases Int.emod_two_eq_zero_or_one q.floor with heven | hodd
      · rw [heven, add_zero]
        constructor <;> linarith
      · rw [hodd]
        push_cast
        constructor <;> linarith

/-- No integer is nearer. -/
theorem abs_sub_roundHalfEven_le (q : ℚ) (n : ℤ) : |q - roundHalfEven q| ≤ |q - n| := by
  by_cases heq : roundHalfEven q = n
  · rw [heq]
  · have hhalf := abs_sub_roundHalfEven_le_half q
    have hone : (1 : ℚ) ≤ |(n : ℚ) - roundHalfEven q| := by
      have hdistinct : (1 : ℤ) ≤ |n - roundHalfEven q| :=
        Int.one_le_abs (sub_ne_zero.2 (Ne.symm heq))
      exact_mod_cast hdistinct
    have htriangle : |(n : ℚ) - roundHalfEven q| ≤ |q - n| + |q - roundHalfEven q| := by
      rw [abs_sub_comm q n]
      exact abs_sub_le _ _ _
    linarith

/-- An integer that is not above a rational is not above the nearest integer to it. -/
theorem le_roundHalfEven {n : ℤ} {q : ℚ} (h : n ≤ q) : n ≤ roundHalfEven q := by
  have hhalf := (abs_le.1 (abs_sub_roundHalfEven_le_half q)).2
  have hlt : (n : ℚ) < roundHalfEven q + 1 := by linarith
  exact Int.lt_add_one_iff.1 (by exact_mod_cast hlt)

/-- An integer that is not below a rational is not below the nearest integer to it. -/
theorem roundHalfEven_le {n : ℤ} {q : ℚ} (h : q ≤ n) : roundHalfEven q ≤ n := by
  have hhalf := (abs_le.1 (abs_sub_roundHalfEven_le_half q)).1
  have hlt : (roundHalfEven q : ℚ) < n + 1 := by linarith
  exact Int.lt_add_one_iff.1 (by exact_mod_cast hlt)

/-! ## Numbers of 53 binary digits -/

/-- A number with 53 significant binary digits at most. -/
def IsBinary53 (x : ℚ) : Prop := ∃ (m : ℕ) (e : ℤ), m < 2 ^ 53 ∧ x = m * 2 ^ e

/-- The distance between neighbours of 53 digits from the exponent of a number on. -/
def ulp (q : ℚ) : ℚ := 2 ^ (binaryExponent q - 52)

theorem ulp_pos (q : ℚ) : 0 < ulp q := zpow_pos two_pos _

variable {q x : ℚ}

/-- A number is rounded to a whole number of its distance. -/
theorem round53_eq (hq : 0 < q) : round53 q = roundHalfEven (q / ulp q) * ulp q := by
  rw [round53, if_neg (not_le.2 hq)]
  rfl

/-- The power of two below a number is 2⁵² times its distance. -/
theorem zpow_binaryExponent_eq (q : ℚ) : (2 : ℚ) ^ binaryExponent q = 2 ^ 52 * ulp q := by
  rw [ulp, ← zpow_natCast, ← zpow_add₀ two_ne_zero]
  congr 1
  omega

/-- A positive number is 2⁵² times its distance at least. -/
theorem two_pow_mul_ulp_le (hq : 0 < q) : 2 ^ 52 * ulp q ≤ q := by
  rw [← zpow_binaryExponent_eq]
  exact zpow_binaryExponent_le hq

/-- A number is less than 2⁵³ times its distance. -/
theorem lt_two_pow_mul_ulp (q : ℚ) : q < 2 ^ 53 * ulp q := by
  have h := lt_zpow_binaryExponent_succ q
  rw [zpow_add_one₀ two_ne_zero, zpow_binaryExponent_eq] at h
  linarith

/-- A power of two of at most 53 digits counts as one of 53. -/
theorem isBinary53_of_le {m : ℕ} (h : m ≤ 2 ^ 53) (e : ℤ) : IsBinary53 (m * 2 ^ e) := by
  rcases h.lt_or_eq with hlt | rfl
  · exact ⟨m, e, hlt, rfl⟩
  · refine ⟨1, e + 53, by norm_num, ?_⟩
    rw [zpow_add₀ two_ne_zero]
    push_cast
    norm_num
    ring

/-- Natural numbers up to 2⁵³ have 53 digits at most. -/
theorem isBinary53_natCast {n : ℕ} (h : n ≤ 2 ^ 53) : IsBinary53 n := by
  have hn := isBinary53_of_le h 0
  rwa [zpow_zero, mul_one] at hn

/-- What a number is rounded to has 53 digits. -/
theorem isBinary53_round53 (q : ℚ) : IsBinary53 (round53 q) := by
  rcases le_or_gt q 0 with hq | hq
  · rw [round53, if_pos hq]
    exact ⟨0, 0, by norm_num, by norm_num⟩
  · have hdigits : q / ulp q ≤ ((2 ^ 53 : ℤ) : ℚ) := by
      rw [div_le_iff₀ (ulp_pos q)]
      exact_mod_cast (lt_two_pow_mul_ulp q).le
    have hle := roundHalfEven_le hdigits
    have hnonneg : 0 ≤ roundHalfEven (q / ulp q) := by
      refine le_roundHalfEven ?_
      rw [Int.cast_zero]
      exact (div_pos hq (ulp_pos q)).le
    lift roundHalfEven (q / ulp q) to ℕ using hnonneg with m hm
    rw [round53_eq hq, ← hm]
    exact isBinary53_of_le (by exact_mod_cast hle) _

/-- A number of 53 digits that reaches the exponent of another is one of the grid there. -/
theorem IsBinary53.eq_mul_ulp (hx : IsBinary53 x) (h : 2 ^ 52 * ulp q ≤ x) :
    ∃ n : ℤ, x = n * ulp q := by
  obtain ⟨m, e, hm, rfl⟩ := hx
  rw [← zpow_binaryExponent_eq] at h
  -- The unit of the number is not below that of the grid.
  have hexponent : binaryExponent q < 53 + e := by
    refine (zpow_lt_zpow_iff_right₀ (one_lt_two (α := ℚ))).1 (h.trans_lt ?_)
    rw [zpow_add₀ two_ne_zero]
    gcongr
    exact_mod_cast hm
  obtain ⟨k, hk⟩ : ∃ k : ℕ, e = k + (binaryExponent q - 52) :=
    ⟨(e - (binaryExponent q - 52)).toNat, by omega⟩
  refine ⟨m * 2 ^ k, ?_⟩
  rw [hk, zpow_add₀ two_ne_zero, zpow_natCast, ulp]
  push_cast
  ring

/-! ## The nearest number of 53 digits -/

/-- On the grid of a number, distances are those to integers. -/
theorem abs_sub_mul_ulp (q : ℚ) (n : ℤ) : |q - n * ulp q| = |q / ulp q - n| * ulp q := by
  have hulp := ulp_pos q
  rw [← abs_of_pos hulp, ← abs_mul, abs_of_pos hulp, sub_mul, div_mul_cancel₀ q hulp.ne']

/-- No number of the grid is nearer than what a number is rounded to. -/
theorem abs_sub_round53_le_mul (hq : 0 < q) (n : ℤ) : |q - round53 q| ≤ |q - n * ulp q| := by
  rw [round53_eq hq, abs_sub_mul_ulp, abs_sub_mul_ulp]
  exact mul_le_mul_of_nonneg_right (abs_sub_roundHalfEven_le _ _) (ulp_pos q).le

/-- Rounding leads to the nearest number of 53 digits. -/
theorem abs_sub_round53_le (hq : 0 ≤ q) (hx : IsBinary53 x) : |q - round53 q| ≤ |q - x| := by
  rcases hq.eq_or_lt with rfl | hq
  · simp [round53]
  · rcases le_or_gt (2 ^ 52 * ulp q) x with hle | hlt
    · obtain ⟨n, rfl⟩ := hx.eq_mul_ulp hle
      exact abs_sub_round53_le_mul hq n
    · -- The least number of the grid lies between the two.
      have hbase := two_pow_mul_ulp_le hq
      have hgrid := abs_sub_round53_le_mul hq (2 ^ 52)
      rw [Int.cast_pow, Int.cast_ofNat, abs_of_nonneg (sub_nonneg.2 hbase)] at hgrid
      rw [abs_of_nonneg (sub_nonneg.2 (hlt.le.trans hbase))]
      linarith

theorem IsBinary53.nonneg (hx : IsBinary53 x) : 0 ≤ x := by
  obtain ⟨m, e, -, rfl⟩ := hx
  positivity

theorem round53_nonneg (q : ℚ) : 0 ≤ round53 q := (isBinary53_round53 q).nonneg

/-- A number of 53 digits is rounded to itself. -/
theorem IsBinary53.round53_eq (hx : IsBinary53 x) : round53 x = x := by
  have h := abs_sub_round53_le hx.nonneg hx
  rw [sub_self, abs_zero] at h
  exact (sub_eq_zero.1 (abs_nonpos_iff.1 h)).symm

/-- The nearer of two numbers is on the same side of their middle. -/
theorem mul_nonpos_of_abs_sub_le {y : ℚ} (h : |q - x| ≤ |q - y|) :
    (y - x) * (2 * q - (x + y)) ≤ 0 := by
  have hsquare := sq_le_sq.2 h
  linarith

/-- Rounding keeps the order. -/
theorem round53_mono : Monotone round53 := by
  intro p q h
  rcases le_or_gt p 0 with hp | hp
  · rw [round53, if_pos hp]
    exact round53_nonneg q
  · by_contra hlt
    rw [not_le] at hlt
    -- Each number is on the side of its own rounding from the middle of the two.
    have hfirst := mul_nonpos_of_abs_sub_le (abs_sub_round53_le hp.le (isBinary53_round53 q))
    have hsecond :=
      mul_nonpos_of_abs_sub_le (abs_sub_round53_le (hp.le.trans h) (isBinary53_round53 p))
    have hgap : 0 < round53 p - round53 q := sub_pos.2 hlt
    have heq : p = q := by
      have := nonneg_of_mul_nonpos_right hfirst (by linarith)
      have := nonpos_of_mul_nonpos_right hsecond hgap
      linarith
    rw [heq] at hlt
    exact lt_irrefl _ hlt

/-- Rounding changes a number by no more than the part 2⁻⁵³ of it. -/
theorem abs_sub_round53_le_div (hq : 0 ≤ q) : |q - round53 q| ≤ q / 2 ^ 53 := by
  rcases hq.eq_or_lt with rfl | hq
  · simp [round53]
  · have hulp := ulp_pos q
    have hhalf := abs_sub_roundHalfEven_le_half (q / ulp q)
    have hbase := two_pow_mul_ulp_le hq
    calc |q - round53 q| = |q / ulp q - roundHalfEven (q / ulp q)| * ulp q := by
          rw [round53_eq hq, abs_sub_mul_ulp]
      _ ≤ 1 / 2 * ulp q := by gcongr
      _ ≤ q / 2 ^ 53 := by
        rw [le_div_iff₀ (by positivity)]
        linarith

/-- A rounded number lies within the part 2⁻⁵³ of the number. -/
theorem round53_mem (hq : 0 ≤ q) :
    q * (1 - 1 / 2 ^ 53) ≤ round53 q ∧ round53 q ≤ q * (1 + 1 / 2 ^ 53) := by
  obtain ⟨hlower, hupper⟩ := abs_le.1 (abs_sub_round53_le_div hq)
  constructor <;> linarith

/-- Up to the part 2⁻⁵³ above a number of 53 digits there is no other. -/
theorem IsBinary53.add_div_lt {y : ℚ} (hx : IsBinary53 x) (hy : IsBinary53 y) (hpos : 0 < x)
    (h : x < y) : x + x / 2 ^ 53 < y := by
  have hbase := two_pow_mul_ulp_le hpos
  have hnext := lt_two_pow_mul_ulp x
  have hulp := ulp_pos x
  obtain ⟨m, hm⟩ := hx.eq_mul_ulp hbase
  obtain ⟨n, hn⟩ := hy.eq_mul_ulp (hbase.trans h.le)
  have hlt : m < n := by
    rw [hm, hn] at h
    exact_mod_cast lt_of_mul_lt_mul_right h hulp.le
  have hgap : x + ulp x ≤ y := by
    have hsucc : (m : ℚ) + 1 ≤ n := by exact_mod_cast hlt
    calc x + ulp x = (m + 1) * ulp x := by rw [add_mul, one_mul, ← hm]
      _ ≤ n * ulp x := mul_le_mul_of_nonneg_right hsucc hulp.le
      _ = y := hn.symm
  have hpart : x / 2 ^ 53 < ulp x := by
    rw [div_lt_iff₀ (by positivity), mul_comm]
    exact hnext
  linarith

/-- What lies just above a number of 53 digits is rounded to it. -/
theorem IsBinary53.round53_eq_of_near (hx : IsBinary53 x) (hle : x ≤ q)
    (hnear : q - x ≤ x / 2 ^ 54) : round53 q = x := by
  have hmono : x ≤ round53 q := by
    rw [← hx.round53_eq]
    exact round53_mono hle
  rcases hmono.eq_or_lt with heq | hlt
  · exact heq.symm
  · exfalso
    have hpos : 0 < x := by
      refine hx.nonneg.lt_of_ne fun hzero => ?_
      have hq : q = 0 := by
        rw [← hzero] at hle hnear
        linarith
      rw [hq, ← hzero] at hlt
      exact lt_irrefl _ hlt
    have hgap := hx.add_div_lt (isBinary53_round53 q) hpos hlt
    have hnearest := abs_sub_round53_le (hpos.le.trans hle) hx
    rw [abs_of_nonneg (sub_nonneg.2 hle)] at hnearest
    have := (abs_le.1 hnearest).1
    linarith

end SeriesQuery
