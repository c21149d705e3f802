import SeriesQuery.Proofs.Text.Word

/-!
# Conditions

The conditions of a WHERE clause, by the precedence of SQL: NOT binds tightest, then AND, then OR,
and a parenthesis goes around anything. There is one kind of tree for each level (`Condition`), so a
tree has no parentheses but those that are written. What stands between the connectives is an atom,
a text that is true or false of a row.

A list of tokens is that of one condition at most (`Condition.tokens_inj`), since none of its parts
can be read on over its end. So a condition has one reading however its tokens are written
(`Spells`), and one value for every truth assignment (`Condition.eval`). An atom and AND in front of
a condition go with its first disjunct only (`Condition.tokens_prepend`, `Condition.eval_prepend`).
-/

namespace SeriesQuery

open Text

/-- The levels of precedence, the tightest first. -/
inductive Level
  | primary
  | conjunction
  | disjunction
  deriving DecidableEq, Repr

/-- A condition, by the level at which it can stand. -/
inductive Condition : Level → Type
  | atom (text : Text) : Condition .primary
  | not (c : Condition .primary) : Condition .primary
  | parenthesis (c : Condition .disjunction) : Condition .primary
  | factor (c : Condition .primary) : Condition .conjunction
  | and (c : Condition .primary) (rest : Condition .conjunction) : Condition .conjunction
  | term (c : Condition .conjunction) : Condition .disjunction
  | or (c : Condition .conjunction) (rest : Condition .disjunction) : Condition .disjunction

/-- What a condition is written with. -/
inductive ConditionToken
  | atom (text : Text)
  | not
  | and
  | or
  | opening
  | closing
  deriving DecidableEq, Repr

namespace Condition

variable {l : Level}

/-- The tokens of a condition, from left to right. -/
def tokens : {l : Level} → Condition l → List ConditionToken
  | _, atom s => [.atom s]
  | _, not c => .not :: c.tokens
  | _, parenthesis c => .opening :: (c.tokens ++ [.closing])
  | _, factor c => c.tokens
  | _, and c rest => c.tokens ++ .and :: rest.tokens
  | _, term c => c.tokens
  | _, or c rest => c.tokens ++ .or :: rest.tokens

/-- The value of a condition where its atoms have these. -/
def eval (v : Text → Bool) : {l : Level} → Condition l → Bool
  | _, atom s => v s
  | _, not c => !c.eval v
  | _, parenthesis c => c.eval v
  | _, factor c => c.eval v
  | _, and c rest => c.eval v && rest.eval v
  | _, term c => c.eval v
  | _, or c rest => c.eval v || rest.eval v

/-! ## One reading -/

/-- No condition of the level goes on with these tokens. -/
def Ends : Level → List ConditionToken → Prop
  | .primary, _ => True
  | .conjunction, r => r.head? ≠ some .and
  | .disjunction, r => r.head? ≠ some .and ∧ r.head? ≠ some .or

variable {r r' : List ConditionToken}

/-- Where no disjunction goes on, no conjunction does. -/
theorem Ends.conjunction (h : Ends .disjunction r) : Ends .conjunction r := h.1

theorem ends_or (r : List ConditionToken) : Ends .conjunction (.or :: r) := by simp [Ends]

theorem ends_closing (r : List ConditionToken) : Ends .disjunction (.closing :: r) := by simp [Ends]

/-- Two conditions that the same tokens begin with are the same, if neither goes on. -/
theorem tokens_append_inj : ∀ {l : Level} {c d : Condition l} {r r' : List ConditionToken},
    Ends l r → Ends l r' → c.tokens ++ r = d.tokens ++ r' → c = d ∧ r = r'
  | _, atom s, d, r, r', _, _, h => by
    cases d with
    | atom s' =>
      cases h
      exact ⟨rfl, rfl⟩
    | not | parenthesis => cases h
  | _, not c, d, r, r', _, _, h => by
    cases d with
    | not d =>
      obtain ⟨rfl, hrest⟩ := tokens_append_inj (c := c) (d := d) trivial trivial (List.cons.inj h).2
      exact ⟨rfl, hrest⟩
    | atom | parenthesis => cases h
  | _, parenthesis c, d, r, r', _, _, h => by
    cases d with
    | parenthesis d =>
      have hinner : c.tokens ++ .closing :: r = d.tokens ++ .closing :: r' := by
        simpa only [tokens, List.cons_append, List.append_assoc, List.nil_append,
          List.cons.injEq, true_and] using h
      obtain ⟨rfl, hrest⟩ := tokens_append_inj (ends_closing r) (ends_closing r') hinner
      exact ⟨rfl, (List.cons.inj hrest).2⟩
    | atom | not => cases h
  | _, factor c, d, r, r', hr, hr', h => by
    cases d with
    | factor d =>
      obtain ⟨rfl, hrest⟩ := tokens_append_inj (c := c) (d := d) trivial trivial h
      exact ⟨rfl, hrest⟩
    | and d ds =>
      rw [tokens, tokens, List.append_assoc] at h
      obtain ⟨-, rfl⟩ := tokens_append_inj (c := c) (d := d) trivial trivial h
      exact absurd rfl hr
  | _, and c cs, d, r, r', hr, hr', h => by
    rw [tokens, List.append_assoc] at h
    cases d with
    | factor d =>
      obtain ⟨-, rfl⟩ := tokens_append_inj (c := c) (d := d) trivial trivial h
      exact absurd rfl hr'
    | and d ds =>
      rw [tokens, List.append_assoc] at h
      obtain ⟨rfl, hrest⟩ := tokens_append_inj (c := c) (d := d) trivial trivial h
      obtain ⟨rfl, hend⟩ := tokens_append_inj (c := cs) (d := ds) hr hr' (List.cons.inj hrest).2
      exact ⟨rfl, hend⟩
  | _, term c, d, r, r', hr, hr', h => by
    cases d with
    | term d =>
      obtain ⟨rfl, hrest⟩ := tokens_append_inj (c := c) (d := d) hr.conjunction hr'.conjunction h
      exact ⟨rfl, hrest⟩
    | or d ds =>
      rw [tokens, tokens, List.append_assoc] at h
      obtain ⟨-, rfl⟩ := tokens_append_inj (c := c) (d := d) hr.conjunction (ends_or _) h
      exact absurd rfl hr.2
  | _, or c cs, d, r, r', hr, hr', h => by
    rw [tokens, List.append_assoc] at h
    cases d with
    | term d =>
      obtain ⟨-, rfl⟩ := tokens_append_inj (c := c) (d := d) (ends_or _) hr'.conjunction h
      exact absurd rfl hr'.2
    | or d ds =>
      rw [tokens, List.append_assoc] at h
      obtain ⟨rfl, hrest⟩ := tokens_append_inj (c := c) (d := d) (ends_or _) (ends_or _) h
      obtain ⟨rfl, hend⟩ := tokens_append_inj (c := cs) (d := ds) hr hr' (List.cons.inj hrest).2
      exact ⟨rfl, hend⟩

/-- Tokens are read as one condition only. -/
theorem tokens_inj {c d : Condition l} (h : c.tokens = d.tokens) : c = d := by
  have hends : Ends l [] := by
    cases l <;> simp [Ends]
  exact (tokens_append_inj hends hends (congrArg (· ++ []) h)).1

/-! ## An atom in front -/

/-- The first disjunct. -/
def first : Condition .disjunction → Condition .conjunction
  | term c => c
  | or c _ => c

/-- The disjuncts behind the first one. -/
def later? : Condition .disjunction → Option (Condition .disjunction)
  | term _ => none
  | or _ rest => some rest

/-- The condition with an atom and AND in front of its first disjunct. -/
def prepend (s : Text) : Condition .disjunction → Condition .disjunction
  | term c => term (and (atom s) c)
  | or c rest => or (and (atom s) c) rest

variable (s : Text) (c : Condition .disjunction) (v : Text → Bool)

/-- An atom and AND stand in front of the tokens of the condition. -/
theorem tokens_prepend : (c.prepend s).tokens = .atom s :: .and :: c.tokens := by
  cases c <;> rfl

/-- A disjunction holds if its first disjunct or one of the others does. -/
theorem eval_eq : c.eval v = (c.first.eval v || c.later?.any (eval v)) := by
  cases c with
  | term c => exact (Bool.or_false _).symm
  | or c rest => rfl

/-- An atom in front of a disjunction belongs to its first disjunct. -/
theorem eval_prepend :
    (c.prepend s).eval v = (v s && c.first.eval v || c.later?.any (eval v)) := by
  cases c with
  | term c => exact (Bool.or_false _).symm
  | or c rest => rfl

/-- The atom bounds the whole condition exactly if the later disjuncts are bounded by it anyway. -/
theorem eval_prepend_eq_iff :
    (∀ v, (c.prepend s).eval v = (v s && c.eval v)) ↔
      ∀ rest ∈ c.later?, ∀ v, rest.eval v → v s := by
  constructor
  · intro h rest hrest v htrue
    have hv := h v
    rw [eval_prepend, hrest, Option.any_some, htrue, Bool.or_true] at hv
    exact (Bool.and_eq_true_iff.1 hv.symm).1
  · intro h v
    rw [eval_prepend, eval_eq, Bool.and_or_distrib_left]
    cases hlater : c.later? with
    | none => rw [Option.any_none, Bool.and_false]
    | some rest =>
      rw [Option.any_some]
      cases hrest : rest.eval v with
      | false => rw [Bool.and_false]
      | true => rw [h rest hlater v hrest, Bool.and_true]

end Condition

/-! ## Writing conditions -/

namespace ConditionToken

/-- The text writes the token: a keyword in any letter case, an atom as it is. -/
inductive Writes : ConditionToken → Text → Prop
  | atom {s : Text} (hne : s ≠ []) (hends : HasBareEnds s) : Writes (.atom s) s
  | not {s : Text} (h : s.map Char.toLower = "not".toList) : Writes .not s
  | and {s : Text} (h : s.map Char.toLower = "and".toList) : Writes .and s
  | or {s : Text} (h : s.map Char.toLower = "or".toList) : Writes .or s
  | opening : Writes .opening ['(']
  | closing : Writes .closing [')']

/-- The token can be written: as an atom, it is a text with no blank at its ends. -/
def IsWritable : ConditionToken → Prop
  | .atom s => s ≠ [] ∧ trim s = s
  | _ => True

instance : DecidablePred IsWritable
  | .atom s => inferInstanceAs (Decidable (s ≠ [] ∧ trim s = s))
  | .not | .and | .or | .opening | .closing => isTrue trivial

/-- The token is a parenthesis, which needs no blank to its neighbours. -/
def IsParenthesis (t : ConditionToken) : Prop := t = .opening ∨ t = .closing

end ConditionToken

/-- The text writes the tokens one behind the other, with blanks between those that need some. -/
inductive Spells : List ConditionToken → Text → Prop
  | single {t : ConditionToken} {s : Text} (h : t.Writes s) : Spells [t] s
  | cons {t t' : ConditionToken} {tokens : List ConditionToken} {s gap rest : Text}
      (h : t.Writes s) (hblank : isAllBlank gap)
      (hgap : gap = [] → t.IsParenthesis ∨ t'.IsParenthesis)
      (hrest : Spells (t' :: tokens) rest) : Spells (t :: t' :: tokens) (s ++ gap ++ rest)

theorem ConditionToken.Writes.ne_nil {t : ConditionToken} {s : Text} (h : t.Writes s) : s ≠ [] := by
  cases h with
  | atom hne => exact hne
  | not h | and h | or h =>
    rintro rfl
    cases h
  | opening | closing => exact List.cons_ne_nil _ _

/-- No token is written with a blank at its ends. -/
theorem ConditionToken.Writes.hasBareEnds {t : ConditionToken} {s : Text} (h : t.Writes s) :
    HasBareEnds s := by
  have hword {w : Text} (hw : s.map Char.toLower = w) (hchars : ∀ c ∈ w, isWordChar c) :
      HasBareEnds s := by
    have hblank : ∀ c ∈ s, ¬ isBlank c := fun c hc hb => not_isWordChar_of_isBlank hb <|
      isWordChar_of_toLower (hchars _ (hw ▸ List.mem_map_of_mem hc))
    exact ⟨fun c hc => hblank c (List.mem_of_mem_head? hc),
      fun c hc => hblank c (List.mem_of_mem_getLast? hc)⟩
  cases h with
  | atom _ hends => exact hends
  | not h | and h | or h => exact hword h (List.all_eq_true.1 (by decide))
  | opening | closing => exact hasBareEnds_singleton (by decide)

namespace Spells

variable {tokens : List ConditionToken} {text : Text}

/-- What tokens are written as has no blank at its ends. -/
theorem hasBareEnds (h : Spells tokens text) : HasBareEnds text ∧ text ≠ [] := by
  induction h with
  | single h => exact ⟨h.hasBareEnds, h.ne_nil⟩
  | cons h _ _ _ ih =>
    rw [List.append_assoc]
    exact ⟨h.hasBareEnds.surround ih.1 h.ne_nil ih.2 _,
      List.append_ne_nil_of_left_ne_nil h.ne_nil _⟩

theorem exists_cons (h : Spells tokens text) : ∃ t ts, tokens = t :: ts := by
  cases h <;> exact ⟨_, _, rfl⟩

/-- Tokens can be written behind others with blanks between, or right behind them if they start with
a parenthesis. -/
theorem append {more : List ConditionToken} {gap rest : Text} (h : Spells tokens text)
    (hrest : Spells more rest) (hblank : isAllBlank gap)
    (hgap : gap = [] → ∀ t ∈ more.head?, t.IsParenthesis) :
    Spells (tokens ++ more) (text ++ gap ++ rest) := by
  induction h with
  | single h =>
    obtain ⟨t, ts, rfl⟩ := hrest.exists_cons
    exact .cons h hblank (fun he => .inr (hgap he t rfl)) hrest
  | cons h hblank' hgap' _ ih =>
    rw [List.append_assoc _ gap, List.append_assoc, ← List.append_assoc _ gap]
    exact .cons h hblank' hgap' ih

/-- Tokens can be written behind others with a space between. -/
theorem space {more : List ConditionToken} {rest : Text} (h : Spells tokens text)
    (hrest : Spells more rest) : Spells (tokens ++ more) (text ++ ' ' :: rest) := by
  rw [show text ++ ' ' :: rest = text ++ [' '] ++ rest by simp]
  exact h.append hrest (by decide) nofun

end Spells

namespace Condition

/-- The plain form of a condition, with one space around its connectives. -/
def text : {l : Level} → Condition l → Text
  | _, atom s => s
  | _, not c => "NOT".toList ++ ' ' :: c.text
  | _, parenthesis c => '(' :: (c.text ++ [')'])
  | _, factor c => c.text
  | _, and c rest => c.text ++ ' ' :: ("AND".toList ++ ' ' :: rest.text)
  | _, term c => c.text
  | _, or c rest => c.text ++ ' ' :: ("OR".toList ++ ' ' :: rest.text)

/-- Every condition can be written, if its atoms can. -/
theorem spells_text : ∀ {l : Level} (c : Condition l),
    (∀ t ∈ c.tokens, t.IsWritable) → Spells c.tokens c.text
  | _, atom s, h => by
    obtain ⟨hne, htrim⟩ := h _ (List.mem_cons_self ..)
    exact .single (.atom hne (hasBareEnds_iff.2 htrim))
  | _, not c, h => by
    have hc := c.spells_text fun t ht => h t (List.mem_cons_of_mem _ ht)
    exact (Spells.single (.not (by decide))).space hc
  | _, parenthesis c, h => by
    have hc := c.spells_text fun t ht => h t (List.mem_cons_of_mem _ (List.mem_append_left _ ht))
    have hclose : Spells (c.tokens ++ [.closing]) (c.text ++ [')']) := by
      have := hc.append (.single .closing) isAllBlank_nil fun _ t ht =>
        .inr (Option.some.inj ht).symm
      rwa [List.append_nil] at this
    obtain ⟨t, ts, hcons⟩ := hclose.exists_cons
    rw [hcons] at hclose
    rw [tokens, text, hcons,
      show '(' :: (c.text ++ [')']) = ['('] ++ [] ++ (c.text ++ [')']) from rfl]
    exact .cons .opening isAllBlank_nil (fun _ => .inl (.inl rfl)) hclose
  | _, factor c, h => c.spells_text h
  | _, and c rest, h => by
    have hc := c.spells_text fun t ht => h t (List.mem_append_left _ ht)
    have hrest := rest.spells_text fun t ht =>
      h t (List.mem_append_right _ (List.mem_cons_of_mem _ ht))
    exact hc.space ((Spells.single (.and (by decide))).space hrest)
  | _, term c, h => c.spells_text h
  | _, or c rest, h => by
    have hc := c.spells_text fun t ht => h t (List.mem_append_left _ ht)
    have hrest := rest.spells_text fun t ht =>
      h t (List.mem_append_right _ (List.mem_cons_of_mem _ ht))
    exact hc.space ((Spells.single (.or (by decide))).space hrest)

end Condition

end SeriesQuery
