import SeriesQuery.Proofs.Text.Numeral
import SeriesQuery.Time.Absolute

/-!
# The forms of absolute dates

Each reader gives back the digits it is given: a field its number (`readDigits?_append`,
`readField?_append`), a date its three numbers (`Fields.readCivilDate?_append`). A timestamp is
taken apart into its fields (`readTimestamp?_eq_some_iff`).

The forms share no text (`AbsoluteForm.eq_of_read?`): a number holds no hyphen, and what stands
behind the date and behind the time tells the other three apart. So the order in which the forms are
tried makes no difference (`readAbsolute?_eq_some_iff`).
-/

namespace SeriesQuery

open Text

/-! ## Fields -/

theorem after?_self_cons (c : Char) (r : Text) : after? [c] (c :: r) = some r :=
  after?_eq_some_iff.2 rfl

section
variable {width : ℕ} {g : Text}

/-- Digits are read as their number, whatever follows. -/
theorem readDigits?_append (h : IsDigits width g) (r : Text) :
    readDigits? width (g ++ r) = some (digitsValue g, r) := by
  rw [readDigits?, List.take_left' h.length_eq, List.drop_left' h.length_eq]
  exact if_pos ⟨h.length_eq, List.all_eq_true.2 h.isDigit⟩

/-- A number of some digits is read where as many digits stand, and nowhere else. -/
theorem readDigits?_eq_some_iff (hwidth : 0 < width) {s r : Text} {n : ℕ} :
    readDigits? width s = some (n, r) ↔ ∃ g, IsDigits width g ∧ digitsValue g = n ∧ s = g ++ r := by
  constructor
  · intro h
    rw [readDigits?] at h
    split at h
    · next hdigits =>
      cases h
      have hne : s.take width ≠ [] := List.ne_nil_of_length_pos (hwidth.trans_eq hdigits.1.symm)
      exact ⟨s.take width, ⟨hdigits.1, List.all_eq_true.1 hdigits.2, hne⟩, rfl,
        (List.take_append_drop ..).symm⟩
    · cases h
  · rintro ⟨g, hg, rfl, rfl⟩
    exact readDigits?_append hg r

/-- A field in digits is read as their number. -/
theorem readField?_append (h : IsDigits width g) (r : Text) :
    readField? width (g ++ r) = some (digitsValue g, r) := by
  have hdigits : g.takeWhile Char.isDigit = g := List.takeWhile_eq_self_iff.2 h.isDigit
  rw [readField?, h.trimStart_append]
  simp only [List.take_left' h.length_eq, hdigits, if_neg h.ne_nil, List.drop_left]

/-- A blank in front of a field is passed over. -/
theorem readField?_blank_cons {c : Char} (hc : isBlank c) (width : ℕ) (r : Text) :
    readField? width (c :: r) = readField? width r := by
  rw [readField?, readField?, trimStart, List.dropWhile_cons_of_pos hc, ← trimStart]

/-- A field does not begin with a letter or a mark. -/
theorem readField?_cons_eq_none {c : Char} (hblank : ¬ isBlank c) (hdigit : ¬ c.isDigit)
    (width : ℕ) (r : Text) : readField? width (c :: r) = none := by
  rw [readField?, trimStart, List.dropWhile_cons_of_neg hblank]
  cases width with
  | zero => rfl
  | succ n => simp only [List.take_succ_cons, List.takeWhile_cons_of_neg hdigit, if_true]

/-- A year in four digits is read as their number. -/
theorem readYear?_append (h : IsDigits 4 g) (r : Text) :
    readYear? (g ++ r) = some ((digitsValue g : ℤ), r) := by
  have hread := readField?_append h r
  obtain ⟨c, g, rfl, hc⟩ := h.exists_cons
  rw [readYear?, h.trimStart_append]
  split
  · next he => cases he; exact absurd hc (by decide)
  · next he => cases he; exact absurd hc (by decide)
  · rw [hread]
    rfl

end

/-! ## Dates and times of day in digits -/

/-- Three numbers in digits, the last two of two digits each. -/
structure Fields (width : ℕ) where
  first : Text
  second : Text
  third : Text
  first_isDigits : IsDigits width first
  second_isDigits : IsDigits 2 second
  third_isDigits : IsDigits 2 third

namespace Fields

/-- The three numbers with a separator between them. -/
def text {width : ℕ} (sep : Char) (f : Fields width) : Text :=
  f.first ++ sep :: (f.second ++ sep :: f.third)

section
variable {width : ℕ} (f : Fields width) (sep : Char)

/-- Behind three numbers with separators stands what follows them. -/
theorem text_append (r : Text) :
    f.text sep ++ r = f.first ++ sep :: (f.second ++ sep :: (f.third ++ r)) := by
  simp only [text, List.append_assoc, List.cons_append]

theorem text_ne_nil : f.text sep ≠ [] := by
  simp [text]

end

/-- The date that the numbers are. -/
def date (f : Fields 4) : Date := ⟨digitsValue f.first, digitsValue f.second, digitsValue f.third⟩

/-- The time of day that the numbers are, on a date and with nanoseconds. -/
def time (f : Fields 2) (date : Date) (nanos : ℕ) : CivilTime :=
  ⟨date, digitsValue f.first, digitsValue f.second, digitsValue f.third, nanos⟩

/-- A date in digits is read, whatever follows. -/
theorem readCivilDate?_append (f : Fields 4) (r : Text) :
    readCivilDate? (f.text '-' ++ r) = some (f.date, r) := by
  rw [f.text_append, readCivilDate?, readYear?_append f.first_isDigits]
  simp only [Option.bind_eq_bind, Option.bind_some, after?_self_cons,
    readField?_append f.second_isDigits, readField?_append f.third_isDigits]
  rfl

end Fields

/-! ## The forms -/

section
variable {s : Text} {d : Instant}

/-- The marks between the date and the time of a timestamp. -/
def IsTimeMark (c : Char) : Prop := c = 'T' ∨ c = 't' ∨ c = ' '

/-- A time begins behind one of the marks. -/
theorem afterTimeMark?_eq_some_iff {r : Text} :
    afterTimeMark? s = some r ↔ ∃ mark, IsTimeMark mark ∧ s = mark :: r := by
  cases s with
  | nil => exact ⟨nofun, nofun⟩
  | cons c t =>
    rw [afterTimeMark?, Option.ite_none_right_eq_some, Option.some.injEq]
    exact ⟨fun ⟨hc, ht⟩ => ⟨c, hc, ht ▸ rfl⟩, fun ⟨_, hmark, he⟩ => by cases he; exact ⟨hmark, rfl⟩⟩

/-- A timestamp is the digits of a date, a mark, the digits of a time, a fraction and an offset. -/
theorem readTimestamp?_eq_some_iff : readTimestamp? s = some d ↔
    ∃ (g : Fields 4) (mark : Char) (c : Fields 2) (tail zone : Text) (nanos : ℕ) (offset : ℤ),
      s = g.text '-' ++ mark :: (c.text ':' ++ tail) ∧ IsTimeMark mark ∧
      readFraction? tail = some (nanos, zone) ∧ readOffset? zone = some (offset, []) ∧
      (c.time g.date nanos).toInstant? offset = some d := by
  constructor
  · intro h
    simp only [readTimestamp?, Option.bind_eq_bind, Option.bind_eq_some_iff, Prod.exists,
      readDigits?_eq_some_iff Nat.zero_lt_two, readDigits?_eq_some_iff (Nat.zero_lt_succ 3),
      after?_eq_some_iff, afterTimeMark?_eq_some_iff,
      Option.ite_none_right_eq_some] at h
    obtain ⟨_, _, ⟨year, hyear, rfl, rfl⟩, _, rfl, _, _, ⟨month, hmonth, rfl, rfl⟩, _, rfl, _, _,
      ⟨day, hday, rfl, rfl⟩, _, ⟨mark, hmark, rfl⟩, _, _, ⟨hour, hhour, rfl, rfl⟩, _, rfl, _, _,
      ⟨minute, hminute, rfl, rfl⟩, _, rfl, _, _, ⟨second, hsecond, rfl, rfl⟩, nanos, zone,
      hfraction, offset, _, hoffset, rfl, h⟩ := h
    refine ⟨⟨year, month, day, hyear, hmonth, hday⟩, mark,
      ⟨hour, minute, second, hhour, hminute, hsecond⟩, _, zone, nanos, offset, ?_, hmark, hfraction,
      hoffset, h⟩
    simp only [Fields.text_append, List.singleton_append]
  · rintro ⟨g, mark, c, tail, zone, nanos, offset, rfl, hmark, hfraction, hoffset, h⟩
    have htime (r : Text) : afterTimeMark? (mark :: r) = some r :=
      afterTimeMark?_eq_some_iff.2 ⟨mark, hmark, rfl⟩
    rw [g.text_append, readTimestamp?, readDigits?_append g.first_isDigits]
    simp only [Option.bind_eq_bind, Option.bind_some, after?_self_cons,
      readDigits?_append g.second_isDigits, readDigits?_append g.third_isDigits, htime,
      c.text_append, readDigits?_append c.first_isDigits, readDigits?_append c.second_isDigits,
      readDigits?_append c.third_isDigits, hfraction, hoffset, if_true]
    exact h

/-- A date alone is read where nothing follows the digits of a date. -/
theorem readDay?_append (g : Fields 4) (r : Text) :
    readDay? (g.text '-' ++ r) =
      if r = [] then CivilTime.toInstant? { date := g.date } 0 else none := by
  rw [readDay?, g.readCivilDate?_append]
  rfl

/-- Behind digits of a date and a mark, a date and time of day in UTC is read where the mark is a
blank and nothing follows the digits of a time. -/
theorem readDateTime?_append (g : Fields 4) {mark : Char} (hmark : IsTimeMark mark)
    (c : Fields 2) (tail : Text) : readDateTime? (g.text '-' ++ mark :: (c.text ':' ++ tail)) =
      if mark = ' ' ∧ tail = [] then (c.time g.date 0).toInstant? 0 else none := by
  rw [readDateTime?, g.readCivilDate?_append, c.text_append]
  by_cases hblank : mark = ' '
  · subst hblank
    simp only [Option.bind_eq_bind, Option.bind_some, after?_self_cons,
      readField?_blank_cons (show isBlank ' ' by decide),
      readField?_append c.first_isDigits, readField?_append c.second_isDigits,
      readField?_append c.third_isDigits, true_and]
    rfl
  · have hletter : ¬ isBlank mark ∧ ¬ mark.isDigit := by
      rcases hmark with rfl | rfl | rfl
      · decide
      · decide
      · exact absurd rfl hblank
    simp only [Option.bind_eq_bind, Option.bind_some, readField?_cons_eq_none hletter.1 hletter.2,
      Option.bind_none, hblank, false_and, if_false]

/-! ## No form takes another's texts -/

/-- A field is read from the front of a text. -/
theorem suffix_of_readField? {width n : ℕ} {r : Text} (h : readField? width s = some (n, r)) :
    r <:+ s := by
  rw [readField?] at h
  split at h
  · cases h
  · cases h
    exact (List.drop_suffix ..).trans (List.dropWhile_suffix isBlank)

theorem suffix_of_map_readField? {width : ℕ} {f : ℕ × Text → ℤ × Text} {year : ℤ} {r : Text}
    (hf : ∀ p, (f p).2 = p.2) (h : (readField? width s).map f = some (year, r)) : r <:+ s := by
  obtain ⟨⟨n, t⟩, hread, he⟩ := Option.map_eq_some_iff.1 h
  obtain rfl : r = t := (congrArg Prod.snd he).symm.trans (hf (n, t))
  exact suffix_of_readField? hread

/-- A year is read from the front of a text, with or without a sign. -/
theorem suffix_of_readYear? {year : ℤ} {r : Text} (h : readYear? s = some (year, r)) : r <:+ s := by
  have hstart : trimStart s <:+ s := List.dropWhile_suffix isBlank
  rw [readYear?] at h
  split at h
  · next t heq =>
    rw [Option.ite_none_right_eq_some] at h
    have hsign : t <:+ trimStart s := heq ▸ List.suffix_cons ..
    exact ((suffix_of_map_readField? (fun _ => rfl) h.2).trans hsign).trans hstart
  · next t heq =>
    rw [Option.ite_none_right_eq_some] at h
    have hsign : t <:+ trimStart s := heq ▸ List.suffix_cons ..
    exact ((suffix_of_map_readField? (fun _ => rfl) h.2).trans hsign).trans hstart
  · exact (suffix_of_map_readField? (fun _ => rfl) h).trans hstart

/-- A hyphen stands in the text of a date. -/
theorem hyphen_mem_of_readCivilDate? {p : Date × Text} (h : readCivilDate? s = some p) :
    '-' ∈ s := by
  obtain ⟨⟨year, t⟩, hyear, h⟩ := Option.bind_eq_some_iff.1 h
  obtain ⟨r, hhyphen, -⟩ := Option.bind_eq_some_iff.1 h
  refine (suffix_of_readYear? hyear).subset ?_
  rw [after?_eq_some_iff.1 hhyphen]
  exact List.mem_cons_self ..

end

/-- The ways to write an instant out. -/
inductive AbsoluteForm
  | millis
  | timestamp
  | dateTime
  | day
  deriving DecidableEq, Repr

namespace AbsoluteForm

/-- The instant that a text writes out in a form. -/
def read? : AbsoluteForm → Text → Option Instant
  | millis, s => (number? s).bind fun n => Instant.ofMillis? n
  | timestamp, s => readTimestamp? s
  | dateTime, s => readDateTime? s
  | day, s => readDay? s

variable {form form' : AbsoluteForm} {s : Text} {d d' : Instant}

/-- A text with a hyphen is no number. -/
theorem number?_eq_none_of_hyphen (h : '-' ∈ s) : number? s = none := by
  cases hnumber : number? s with
  | none => rfl
  | some n => exact absurd ((number?_eq_some_iff.1 hnumber).2.1 _ h) (by decide)

/-- A hyphen tells the other forms from a number. -/
theorem hyphen_mem_of_read? (h : form.read? s = some d) (hform : form ≠ millis) : '-' ∈ s := by
  cases form with
  | millis => exact absurd rfl hform
  | timestamp =>
    obtain ⟨g, mark, c, tail, zone, nanos, offset, rfl, -⟩ := readTimestamp?_eq_some_iff.1 h
    rw [g.text_append]
    simp
  | dateTime =>
    obtain ⟨p, hdate, -⟩ := Option.bind_eq_some_iff.1 h
    exact hyphen_mem_of_readCivilDate? hdate
  | day =>
    obtain ⟨p, hdate, -⟩ := Option.bind_eq_some_iff.1 h
    exact hyphen_mem_of_readCivilDate? hdate

/-- What stands behind the time of a timestamp tells it from a date and time in UTC. -/
theorem readDateTime?_of_readTimestamp? (h : readTimestamp? s = some d) :
    readDateTime? s = none := by
  obtain ⟨g, mark, c, tail, zone, nanos, offset, rfl, hmark, hfraction, hoffset, -⟩ :=
    readTimestamp?_eq_some_iff.1 h
  have htail : tail ≠ [] := by
    rintro rfl
    cases hfraction
    cases hoffset
  rw [readDateTime?_append g hmark, if_neg fun hand => htail hand.2]

/-- What stands behind its date tells a timestamp from a date alone. -/
theorem readDay?_of_readTimestamp? (h : readTimestamp? s = some d) : readDay? s = none := by
  obtain ⟨g, mark, c, tail, zone, nanos, offset, rfl, -⟩ := readTimestamp?_eq_some_iff.1 h
  rw [readDay?_append]
  exact if_neg nofun

/-- A time of day tells a date and time in UTC from a date alone. -/
theorem readDay?_of_readDateTime? (h : readDateTime? s = some d) : readDay? s = none := by
  obtain ⟨⟨date, r⟩, hdate, h⟩ := Option.bind_eq_some_iff.1 h
  have hr : r ≠ [] := by
    rintro rfl
    cases h
  rw [readDay?, hdate]
  exact if_neg hr

/-- What is written out in another form is no number of milliseconds. -/
theorem read?_millis_of_read? (h : form.read? s = some d) (hform : form ≠ millis) :
    millis.read? s = none := by
  rw [read?, number?_eq_none_of_hyphen (hyphen_mem_of_read? h hform)]
  rfl

/-- Each text is read in at most one of the forms. -/
theorem eq_of_read? (h : form.read? s = some d) (h' : form'.read? s = some d') : form = form' := by
  cases form with
  | millis =>
    by_contra hne
    nomatch h.symm.trans (read?_millis_of_read? h' (Ne.symm hne))
  | timestamp =>
    cases form' with
    | millis => nomatch h'.symm.trans (read?_millis_of_read? h nofun)
    | timestamp => rfl
    | dateTime => nomatch h'.symm.trans (readDateTime?_of_readTimestamp? h)
    | day => nomatch h'.symm.trans (readDay?_of_readTimestamp? h)
  | dateTime =>
    cases form' with
    | millis => nomatch h'.symm.trans (read?_millis_of_read? h nofun)
    | timestamp => nomatch h.symm.trans (readDateTime?_of_readTimestamp? h')
    | dateTime => rfl
    | day => nomatch h'.symm.trans (readDay?_of_readDateTime? h)
  | day =>
    cases form' with
    | millis => nomatch h'.symm.trans (read?_millis_of_read? h nofun)
    | timestamp => nomatch h.symm.trans (readDay?_of_readTimestamp? h')
    | dateTime => nomatch h.symm.trans (readDay?_of_readDateTime? h')
    | day => rfl

end AbsoluteForm

/-- An absolute date is what its text writes out in one of the forms. -/
theorem readAbsolute?_eq_some_iff {s : Text} {d : Instant} :
    readAbsolute? s = some d ↔ ∃ form : AbsoluteForm, form.read? (trim s) = some d := by
  rw [readAbsolute?]
  constructor
  · intro h
    split at h
    · next n hn => exact ⟨.millis, by rw [AbsoluteForm.read?, hn]; exact h⟩
    · rcases Option.or_eq_some_iff.1 h with h | ⟨-, h⟩
      · exact ⟨.timestamp, h⟩
      · rcases Option.or_eq_some_iff.1 h with h | ⟨-, h⟩
        · exact ⟨.dateTime, h⟩
        · exact ⟨.day, h⟩
  · rintro ⟨form, h⟩
    have hnone (form' : AbsoluteForm) (hne : form' ≠ form) : form'.read? (trim s) = none :=
      Option.eq_none_iff_forall_ne_some.2 fun d' h' => hne (AbsoluteForm.eq_of_read? h' h)
    by_cases hform : form = .millis
    · subst hform
      obtain ⟨n, hn, h⟩ := Option.bind_eq_some_iff.1 h
      rw [hn]
      exact h
    · have hyphen := AbsoluteForm.hyphen_mem_of_read? h hform
      rw [AbsoluteForm.number?_eq_none_of_hyphen hyphen]
      refine Option.or_eq_some_iff.2 ?_
      cases form with
      | millis => exact absurd rfl hform
      | timestamp => exact .inl h
      | dateTime => exact .inr ⟨hnone .timestamp nofun, Option.or_eq_some_iff.2 (.inl h)⟩
      | day =>
        exact .inr ⟨hnone .timestamp nofun,
          Option.or_eq_some_iff.2 (.inr ⟨hnone .dateTime nofun, h⟩)⟩

end SeriesQuery
