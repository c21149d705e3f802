import SeriesQuery.Text.Basic

/-!
# Segmentation

A text that mixes plain characters with tokens of one kind, such as variable references, is cut
once, from left to right, into segments. A `TokenRule` says how a token is read off the front of a
text and how it is spelled; `segments` tries it at every character and passes over each token it
finds, so no character belongs to two tokens. Substitution (`substitute`) replaces tokens and
copies the rest: what it puts in is never cut again.

`print_segments` says that the segments spell the text they were cut from.
-/

namespace SeriesQuery

/-- How one kind of token is recognised at the front of a text and spelled. -/
structure TokenRule (τ : Type) where
  /-- The token at the very front and the text that follows it. -/
  read? : Text → Option (τ × Text)
  spell : τ → Text
  spell_ne_nil : ∀ {s t r}, read? s = some (t, r) → spell t ≠ []
  spell_append : ∀ {s t r}, read? s = some (t, r) → spell t ++ r = s

/-- A plain character or a token. -/
inductive Segment (τ : Type)
  | plain (c : Char)
  | token (t : τ)
  deriving DecidableEq, Repr

namespace Segment

variable {τ : Type}

/-- The text that a list of segments stands for, where `value` says what each token does. -/
def fill (value : τ → Text) (segments : List (Segment τ)) : Text :=
  segments.flatMap fun
    | .plain c => [c]
    | .token t => value t

@[simp]
theorem fill_nil (value : τ → Text) : fill value [] = [] := rfl

@[simp]
theorem fill_cons_plain (value : τ → Text) (c : Char) (segments : List (Segment τ)) :
    fill value (.plain c :: segments) = c :: fill value segments := rfl

@[simp]
theorem fill_cons_token (value : τ → Text) (t : τ) (segments : List (Segment τ)) :
    fill value (.token t :: segments) = value t ++ fill value segments := rfl

/-- Segments in a row are filled in a row. -/
@[simp]
theorem fill_append (value : τ → Text) (before after : List (Segment τ)) :
    fill value (before ++ after) = fill value before ++ fill value after :=
  List.flatMap_append

end Segment

namespace TokenRule

variable {τ : Type} (rule : TokenRule τ)

/-- The segments of a text whose first `skip` characters belong to a token already read. -/
def segmentsFrom : (skip : Nat) → Text → List (Segment τ)
  | _, [] => []
  | skip + 1, _ :: r => segmentsFrom skip r
  | 0, c :: r =>
    match rule.read? (c :: r) with
    | some (t, _) => .token t :: segmentsFrom ((rule.spell t).length - 1) r
    | none => .plain c :: segmentsFrom 0 r

/-- The segments of a text, from left to right. -/
def segments (s : Text) : List (Segment τ) := rule.segmentsFrom 0 s

/-- The text that a list of segments spells. -/
def print (segments : List (Segment τ)) : Text := Segment.fill rule.spell segments

/-- The text in which every token is replaced by its value. -/
def substitute (value : τ → Text) (s : Text) : Text := Segment.fill value (rule.segments s)

/-- The segments behind some skipped characters are those of the rest. -/
theorem segmentsFrom_eq (skip : Nat) (s : Text) :
    rule.segmentsFrom skip s = rule.segments (s.drop skip) := by
  induction skip generalizing s with
  | zero => rfl
  | succ n ih => cases s with
    | nil => rfl
    | cons c r => simpa [segmentsFrom] using ih r

@[simp]
theorem segments_nil : rule.segments [] = [] := rfl

/-- A token at the front is the first segment. -/
theorem segments_of_read? {s : Text} {t : τ} {r : Text} (h : rule.read? s = some (t, r)) :
    rule.segments s = .token t :: rule.segments r := by
  have hne := rule.spell_ne_nil h
  have happ := rule.spell_append h
  cases s with
  | nil => simp_all
  | cons c s =>
    obtain ⟨d, u, hu⟩ := List.exists_cons_of_ne_nil hne
    rw [hu, List.cons_append, List.cons.injEq] at happ
    simp only [segments, segmentsFrom, h, hu, List.length_cons, Nat.add_sub_cancel]
    rw [segmentsFrom_eq, ← happ.2, List.drop_left]
    rfl

/-- Where no token begins, the first character is a segment. -/
theorem segments_of_read?_eq_none {c : Char} {r : Text} (h : rule.read? (c :: r) = none) :
    rule.segments (c :: r) = .plain c :: rule.segments r := by
  simp only [segments, segmentsFrom, h]

/-- What follows a token is shorter than the text. -/
theorem length_lt_of_read? {s : Text} {t : τ} {r : Text} (h : rule.read? s = some (t, r)) :
    r.length < s.length := by
  have hlength := congrArg List.length (rule.spell_append h)
  have hpos := List.length_pos_iff.2 (rule.spell_ne_nil h)
  rw [List.length_append] at hlength
  omega

/-- Segmentation loses nothing: the segments spell the text they were cut from. -/
@[simp]
theorem print_segments (s : Text) : rule.print (rule.segments s) = s := by
  induction h : s.length using Nat.strongRecOn generalizing s with
  | ind n ih =>
    cases s with
    | nil => rfl
    | cons c r =>
      cases hr : rule.read? (c :: r) with
      | none =>
        rw [rule.segments_of_read?_eq_none hr]
        have := ih r.length (by simp [← h]) r rfl
        simpa [print] using this
      | some p =>
        obtain ⟨t, u⟩ := p
        rw [rule.segments_of_read? hr]
        have happ := rule.spell_append hr
        have := ih u.length (h ▸ rule.length_lt_of_read? hr) u rfl
        rw [print, Segment.fill_cons_token, ← print, this, happ]

/-- A token among the segments was read off the front of some text. -/
theorem exists_read?_of_mem_segmentsFrom {t : τ} {skip : Nat} {s : Text}
    (h : .token t ∈ rule.segmentsFrom skip s) : ∃ u rest, rule.read? u = some (t, rest) := by
  fun_induction segmentsFrom rule skip s with
  | case1 => cases h
  | case2 skip c r ih => exact ih h
  | case3 c r t' rest hread ih =>
    rcases List.mem_cons.1 h with heq | h
    · cases heq
      exact ⟨_, _, hread⟩
    · exact ih h
  | case4 c r hread ih =>
    rcases List.mem_cons.1 h with heq | h
    · cases heq
    · exact ih h

end TokenRule

end SeriesQuery
