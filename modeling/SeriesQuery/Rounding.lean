/-!
# Rounding to 53 binary digits

Durations are reckoned with numbers of 53 significant binary digits, as every double-precision
value has. `round53` takes an exact rational to the nearest such number, and of two equally near
ones to the one whose last digit is even. Exponents are not bounded: durations stay far inside the
range in which that makes no difference.
-/

namespace SeriesQuery

/-- The nearest integer, of two equally near ones the even one. -/
def roundHalfEven (q : Rat) : Int :=
  let f := q.floor
  if q - f < 1 / 2 then f
  else if 1 / 2 < q - f then f + 1
  else f + f % 2

/-- The exponent of the greatest power of two that is not above a positive rational. -/
def binaryExponent (q : Rat) : Int :=
  let e := (q.num.toNat.log2 : Int) - q.den.log2
  if q < (2 : Rat) ^ e then e - 1 else e

/-- The nearest rational with 53 significant binary digits, for one that is not negative. -/
def round53 (q : Rat) : Rat :=
  if q ≤ 0 then 0
  else
    let ulp := (2 : Rat) ^ (binaryExponent q - 52)
    roundHalfEven (q / ulp) * ulp

end SeriesQuery
