import SeriesQuery.Error
import SeriesQuery.Text.Segment
import SeriesQuery.Time.Absolute

/-!
# Date expressions

A date expression is an anchor followed by steps, such as `now-1d/d` or `2024-03-01||+1M`. The
anchor is the present or an absolute date, which two bars end. A step shifts (`+3h`, an omitted
amount is one) or rounds (`/d`, to the start of the unit, or to its end when a date is rounded
up). Steps apply from left to right.

A text is a sequence of steps exactly if nothing in it stands between steps (`readSteps?`).
-/

namespace SeriesQuery

open Text

namespace DateUnit

def all : List DateUnit := [second, minute, hour, day, week, month, year]

/-- The letter of a unit: a small m for minutes, a capital one for months. -/
def letter : DateUnit → Char
  | second => 's'
  | minute => 'm'
  | hour => 'h'
  | day => 'd'
  | week => 'w'
  | month => 'M'
  | year => 'y'

/-- The unit that a text starts with, and what follows it. -/
def read? : Text → Option (DateUnit × Text)
  | [] => none
  | c :: r => (all.find? (·.letter = c)).map fun unit => (unit, r)

/-- A unit is read from its letter. -/
theorem cons_of_read? {s : Text} {unit : DateUnit} {r : Text} (h : read? s = some (unit, r)) :
    s = unit.letter :: r := by
  cases s with
  | nil => simp [read?] at h
  | cons c t =>
    obtain ⟨u, hu, he⟩ := Option.map_eq_some_iff.1 h
    cases he
    simpa [eq_comm] using List.find?_some hu

end DateUnit

/-- The direction of a shift. -/
inductive Sign
  | plus
  | minus
  deriving DecidableEq, Repr

namespace Sign

def char : Sign → Char
  | plus => '+'
  | minus => '-'

def ofChar? (c : Char) : Option Sign :=
  if c = '+' then some plus else if c = '-' then some minus else none

/-- A sign is read from its character. -/
theorem char_of_ofChar? {c : Char} {sign : Sign} (h : ofChar? c = some sign) : sign.char = c := by
  simp only [ofChar?] at h
  split at h
  · cases h; simp_all [char]
  · split at h
    · cases h; simp_all [char]
    · simp at h

end Sign

/-- A step as it is written. -/
inductive DateStep
  | round (unit : DateUnit)
  /-- A shift by the amount that the digits spell, or by one without digits. -/
  | shift (sign : Sign) (digits : Text) (unit : DateUnit)
  deriving DecidableEq, Repr

namespace DateStep

def spell : DateStep → Text
  | round unit => ['/', unit.letter]
  | shift sign digits unit => sign.char :: (digits ++ [unit.letter])

/-- The signed amount of a shift. -/
def amount (sign : Sign) (digits : Text) : Int :=
  let n : Nat := if digits = [] then 1 else digitsValue digits
  match sign with
  | .plus => n
  | .minus => -n

/-- The step at the front of a text, and what follows it. An amount past a signed word of 64 bits is
no step. -/
def read? : Text → Option (DateStep × Text)
  | [] => none
  | c :: r =>
    if c = '/' then (DateUnit.read? r).map fun (unit, rest) => (round unit, rest)
    else
      match Sign.ofChar? c with
      | none => none
      | some sign =>
        let digits := r.takeWhile Char.isDigit
        if IsWord (digitsValue digits) then
          (DateUnit.read? (r.dropWhile Char.isDigit)).map fun (unit, rest) =>
            (shift sign digits unit, rest)
        else none

/-- A step is read from its spelling. -/
theorem spell_append_of_read? {s : Text} {step : DateStep} {r : Text}
    (h : read? s = some (step, r)) : step.spell ++ r = s := by
  cases s with
  | nil => simp [read?] at h
  | cons c t =>
    simp only [read?] at h
    split at h
    · next hc =>
      obtain ⟨⟨unit, rest⟩, hu, he⟩ := Option.map_eq_some_iff.1 h
      cases he
      simp [spell, hc, DateUnit.cons_of_read? hu]
    · split at h
      · simp at h
      · next sign hs =>
        split at h
        · obtain ⟨⟨unit, rest⟩, hu, he⟩ := Option.map_eq_some_iff.1 h
          cases he
          have := DateUnit.cons_of_read? hu
          simp only [spell, Sign.char_of_ofChar? hs, List.cons_append, List.append_assoc,
            List.nil_append, ← this, List.takeWhile_append_dropWhile]
        · simp at h

/-- The instant a step leads to. -/
def apply (roundUp : Bool) (step : DateStep) (d : Instant) : Except DateFault Instant :=
  match step with
  | shift sign digits unit => d.shift (amount sign digits) unit
  | round unit => if roundUp then d.endOf unit else d.startOf unit

end DateStep

/-- Steps of date expressions. -/
def dateStep : TokenRule DateStep where
  read? := DateStep.read?
  spell := DateStep.spell
  spell_ne_nil {_ t _} _ := by cases t <;> simp [DateStep.spell]
  spell_append := DateStep.spell_append_of_read?

/-- The steps that a text is made of. -/
def readSteps? (s : Text) : Option (List DateStep) :=
  (dateStep.segments s).mapM fun
    | .token step => some step
    | .plain _ => none

/-- An anchor and the steps from it. -/
structure DateExpression where
  anchor : Instant
  steps : List DateStep
  deriving DecidableEq, Repr

namespace DateExpression

/-- The word for the present. -/
def present : Text := "now".toList

/-- The expression that a trimmed text spells at a present. -/
def read? (now : Instant) (s : Text) : Option DateExpression := do
  match after? present s with
  | some steps => return ⟨now, ← readSteps? steps⟩
  | none =>
    match splitOnce? "||".toList s with
    | some (anchor, steps) => return ⟨← readAbsolute? anchor, ← readSteps? steps⟩
    | none => return ⟨← readAbsolute? s, []⟩

/-- The instant that the steps lead to from the anchor. -/
def evaluate (roundUp : Bool) (e : DateExpression) : Except DateFault Instant :=
  e.steps.foldlM (fun d step => step.apply roundUp d) e.anchor

end DateExpression

/-- The instant of a date expression, which blanks may surround. -/
def resolveDate (now : Instant) (roundUp : Bool) (text : Text) : Except Failure Instant :=
  match DateExpression.read? now (trim text) with
  | none => .error (.error (.invalidDate (trim text)))
  | some e =>
    match e.evaluate roundUp with
    | .ok d => .ok d
    | .error .unrepresentable => .error (.error (.invalidDate (trim text)))
    | .error .abort => .error .abort

end SeriesQuery
