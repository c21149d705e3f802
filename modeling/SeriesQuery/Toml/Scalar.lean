import SeriesQuery.Data
import SeriesQuery.MachineWord
import SeriesQuery.Text.DecimalDigit
import SeriesQuery.Time.Calendar
import SeriesQuery.Toml.Quoted

/-!
# TOML: numbers, truth values and dates

Digits may have single underscores between them. An integer has to fit a signed word of 64 bits; a
decimal one has no leading zeros. Of a float only its form matters, and that it is not so large that
it would round to positive infinity. A date, a time of day or both read as a record without fields,
since no setting is one.
-/

namespace SeriesQuery.Toml

open Text

/-- The digits behind the first one, without underscores, and what follows them. -/
def readMoreDigits? (isDigit : Char → Bool) : Text → Option (Text × Text)
  | [] => some ([], [])
  | ['_'] => none
  | '_' :: d :: r =>
    if isDigit d then (readMoreDigits? isDigit r).map fun (s, rest) => (d :: s, rest) else none
  | c :: r =>
    if isDigit c then (readMoreDigits? isDigit r).map fun (s, rest) => (c :: s, rest)
    else some ([], c :: r)

/-- A run of digits with underscores between them, and what follows it. -/
def readRun? (isDigit : Char → Bool) : Text → Option (Text × Text)
  | [] => none
  | c :: r =>
    if isDigit c then (readMoreDigits? isDigit r).map fun (s, rest) => (c :: s, rest) else none

/-- An optional sign: whether it is a minus, and what follows it. -/
def readSign : Text → Bool × Text
  | '+' :: r => (false, r)
  | '-' :: r => (true, r)
  | s => (false, s)

/-- The digits of a decimal integer: a zero alone, or no zero in front. -/
def readDecimal? : Text → Option (Text × Text)
  | '0' :: r => some (['0'], r)
  | s => readRun? Char.isDigit s

/-- An integer, if it fits a signed word of 64 bits. -/
def integerData? (n : Int) : Option Data :=
  if IsWord n then some (.integer n) else none

/-- An integer in the digits of a base, all of which are hexadecimal digits below it. -/
def readBased? (base : Nat) (s : Text) : Option (Data × Text) := do
  let (digits, rest) ← readRun? (fun c => (hexValue? c).any (· < base)) s
  let values ← digits.mapM hexValue?
  return (← integerData? ((values.foldl (fun n d => n * base + d) 0 : Nat)), rest)

/-- An integer, in decimal digits or behind the mark of another base. -/
def readInteger? : Text → Option (Data × Text)
  | '0' :: 'x' :: r => readBased? 16 r
  | '0' :: 'o' :: r => readBased? 8 r
  | '0' :: 'b' :: r => readBased? 2 r
  | s => do
    let (negative, r) := readSign s
    let (digits, rest) ← readDecimal? r
    let n : Int := digitsValue digits
    return (← integerData? (if negative then -n else n), rest)

/-- The digits behind the point of a float, if there is one, and what follows them. -/
def readFractionDigits? : Text → Option (Text × Text)
  | '.' :: r => readRun? Char.isDigit r
  | s => some ([], s)

/-- The exponent of a float, if there is one, and what follows it. -/
def readExponent? : Text → Option (Int × Text)
  | c :: r =>
    if c = 'e' ∨ c = 'E' then do
      let (negative, r) := readSign r
      let (digits, rest) ← readRun? Char.isDigit r
      let n : Int := digitsValue digits
      return (if negative then -n else n, rest)
    else some (0, c :: r)
  | [] => some (0, [])

/-- The least number that rounds to infinity as a double. -/
def overflowBound : Nat := Nat.pow 2 1024 - Nat.pow 2 970

/-- Whether a number of tenfold powers is so large that it rounds to infinity. -/
def overflows (digits : Text) (exponent : Int) : Bool :=
  let n := digitsValue digits
  let width : Int := (Nat.toDigits 10 n).length + exponent
  if n = 0 ∨ width < 300 then false
  else if 320 < width then true
  else if 0 ≤ exponent then overflowBound ≤ n * Nat.pow 10 exponent.toNat
  else overflowBound * Nat.pow 10 exponent.natAbs ≤ n

/-- The text behind a float with a fraction or an exponent. -/
def afterFiniteFloat? (s : Text) : Option Text := do
  let (negative, s) := readSign s
  let (whole, s) ← readDecimal? s
  if s.head?.any (fun c => c = '.' || c = 'e' || c = 'E') then
    let (fraction, s) ← readFractionDigits? s
    let (exponent, rest) ← readExponent? s
    if !negative && overflows (whole ++ fraction) (exponent - fraction.length) then none
    else some rest
  else none

/-- The text behind infinity or an undefined number, with an optional sign. -/
def afterSpecialFloat? (s : Text) : Option Text :=
  let (_, s) := readSign s
  (after? "inf".toList s).or (after? "nan".toList s)

/-- A float, kept as it is written. -/
def readFloat? (s : Text) : Option (Data × Text) :=
  ((afterFiniteFloat? s).or (afterSpecialFloat? s)).map fun rest =>
    (.real (s.take (s.length - rest.length)), rest)

/-- Exactly two digits with a value in bounds, and what follows them. -/
def readTwoDigits? (low high : Nat) (s : Text) : Option (Nat × Text) :=
  match s with
  | a :: b :: r =>
    let n := digitsValue [a, b]
    if a.isDigit ∧ b.isDigit ∧ low ≤ n ∧ n ≤ high then some (n, r) else none
  | _ => none

/-- The text behind a date that the calendar has. -/
def afterDate? (s : Text) : Option Text := do
  let year := s.take 4
  if year.length = 4 ∧ year.all Char.isDigit then
    let (month, r) ← readTwoDigits? 1 12 (← after? ['-'] (s.drop 4))
    let (day, r) ← readTwoDigits? 1 31 (← after? ['-'] r)
    if day ≤ monthLength (digitsValue year) month then some r else none
  else none

/-- The text behind a fraction of a second, if there is one. -/
def afterSecondFraction? : Text → Option Text
  | '.' :: r => (readRun? Char.isDigit (r.takeWhile Char.isDigit)).map fun _ =>
      r.dropWhile Char.isDigit
  | s => some s

/-- The text behind a time of day. -/
def afterTime? (s : Text) : Option Text := do
  let (_, r) ← readTwoDigits? 0 23 s
  let (_, r) ← readTwoDigits? 0 59 (← after? [':'] r)
  let (_, r) ← readTwoDigits? 0 60 (← after? [':'] r)
  afterSecondFraction? r

/-- The text behind an offset from UTC, if there is one. -/
def afterOffset? : Text → Option Text
  | [] => some []
  | c :: r =>
    if c = 'Z' ∨ c = 'z' then some r
    else if c = '+' ∨ c = '-' then do
      let (_, r) ← readTwoDigits? 0 23 r
      let (_, r) ← readTwoDigits? 0 59 (← after? [':'] r)
      return r
    else some (c :: r)

/-- The text behind the time of a date, if there is one. -/
def afterTimeOfDate? : Text → Option Text
  | c :: r =>
    if c = 'T' ∨ c = 't' ∨ c = ' ' then
      match afterTime? r with
      | some r => afterOffset? r
      | none => some (c :: r)
    else some (c :: r)
  | [] => some []

/-- A date, a time of day, or both. -/
def readMoment? (s : Text) : Option (Data × Text) :=
  (((afterDate? s).bind afterTimeOfDate?).or (afterTime? s)).map fun rest => (.record [], rest)

/-- A truth value. -/
def readBoolean? (s : Text) : Option (Data × Text) :=
  ((after? "true".toList s).map fun rest => (Data.boolean true, rest)).or
    ((after? "false".toList s).map fun rest => (Data.boolean false, rest))

/-- A value that holds no others. -/
def readScalar? (s : Text) : Option (Data × Text) :=
  ((readString? s).map fun (text, rest) => (Data.text text, rest)).or <|
  (readBoolean? s).or <|
  (readMoment? s).or <|
  (readFloat? s).or (readInteger? s)

end SeriesQuery.Toml
