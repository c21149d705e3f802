import SeriesQuery.Proofs.Macro.Call
import SeriesQuery.Proofs.Macro.Comment
import SeriesQuery.Proofs.Text.Separator

/-!
# The grammar of comments

`Comments` holds of the texts that are blanks, line comments and block comments in any order. The
scanner accepts exactly these (`isOnlyComments_iff`), reading them character by character. A reader
that passes over one comment after another (`Answers`) comes to the same answer: each comment that
it passes leaves a shorter text (`isOnlyComments_of_afterComment?`), so it always ends
(`exists_answers`).

Blanks at the end of a text do not matter to the scanner (`isOnlyComments_trimEnd`), which is why a
query can be trimmed before its call is read: a call for an event is read the same with comments
behind it, and with anything else behind it not at all (`isOnlyComments_grammar`).
-/

namespace SeriesQuery.Macro

open Text Nesting

/-- A text of blanks and comments. -/
inductive Comments : Text → Prop
  | nil : Comments []
  | blank {c : Char} {s : Text} (hc : isBlank c) (h : Comments s) : Comments (c :: s)
  /-- A comment to the end of its line. -/
  | line {body s : Text} (hbody : '\n' ∉ body) (h : Comments s) :
      Comments ('-' :: '-' :: (body ++ '\n' :: s))
  /-- A comment to the end of the text. -/
  | lastLine {body : Text} (hbody : '\n' ∉ body) : Comments ('-' :: '-' :: body)
  /-- A comment to the first end marker behind its beginning. -/
  | block {r body s : Text} (hcut : CutsAtFirst "*/".toList r body s) (h : Comments s) :
      Comments ('/' :: '*' :: r)

namespace CommentState

variable {c : Char} {s t : Text} {state : CommentState}

theorem accepts_append : state.Accepts (s ++ t) ↔
    ∃ next, s.foldlM advance state = some next ∧ next.Accepts t := by
  rw [Accepts, List.foldlM_append]
  cases s.foldlM advance state <;> simp [Accepts]

/-! ## Blanks -/

theorem accepts_blank_cons (hc : isBlank c) : between.Accepts (c :: s) ↔ between.Accepts s := by
  have hnext : between.advance c = some between := if_pos hc
  rw [accepts_cons, hnext]
  simp

/-- Blanks between comments are passed over. -/
theorem accepts_blanks_append {b : Text} (hb : isAllBlank b) :
    between.Accepts (b ++ s) ↔ between.Accepts s := by
  induction b with
  | nil => exact Iff.rfl
  | cons c b ih =>
    obtain ⟨hc, hb⟩ := Bool.and_eq_true_iff.1 hb
    rw [List.cons_append, accepts_blank_cons hc, ih hb]

/-- Blanks in front of a text do not matter. -/
theorem accepts_trimStart : between.Accepts (trimStart s) ↔ between.Accepts s := by
  obtain ⟨b, hb, he⟩ := exists_blanks_trimStart s
  conv_rhs => rw [he]
  exact (accepts_blanks_append hb).symm

/-- Blanks finish nothing that is open, and open nothing. -/
theorem isComplete_advance_blank (hc : isBlank c) :
    (state.advance c).any isComplete = state.isComplete := by
  have hdash : c ≠ '-' := by rintro rfl; exact absurd hc (by decide)
  have hslash : c ≠ '/' := by rintro rfl; exact absurd hc (by decide)
  have hstar : c ≠ '*' := by rintro rfl; exact absurd hc (by decide)
  cases state with
  | inLine =>
    rw [advance]
    split <;> rfl
  | between | afterDash | afterSlash | inBlock | afterStar =>
    simp [advance, hc, hdash, hslash, hstar, isComplete]

/-- A text may end where its blanks begin if it may end behind them. -/
theorem accepts_blanks {b : Text} (hb : isAllBlank b) : state.Accepts b ↔ state.isComplete := by
  induction b generalizing state with
  | nil => exact Iff.rfl
  | cons c b ih =>
    obtain ⟨hc, hb⟩ := Bool.and_eq_true_iff.1 hb
    rw [accepts_cons, ← isComplete_advance_blank hc]
    cases state.advance c <;> simp [ih hb]

/-! ## Line comments -/

/-- In a line comment everything up to a line feed is passed over. -/
theorem accepts_line (hs : '\n' ∉ s) : inLine.Accepts (s ++ t) ↔ inLine.Accepts t := by
  induction s with
  | nil => exact Iff.rfl
  | cons c s ih =>
    have hc : c ≠ '\n' := fun he => hs (he ▸ List.mem_cons_self ..)
    have hnext : inLine.advance c = some inLine := if_neg hc
    rw [List.cons_append, accepts_cons, hnext]
    simpa using ih fun hmem => hs (List.mem_cons_of_mem c hmem)

/-- A line feed ends a line comment. -/
theorem accepts_lineFeed : inLine.Accepts ('\n' :: s) ↔ between.Accepts s := by
  rw [accepts_cons]
  simp [advance]

/-- A line comment leaves the line feed behind it. -/
theorem accepts_nextLine_iff : between.Accepts (nextLine s) ↔ inLine.Accepts s := by
  refine ⟨fun h => ?_, accepts_nextLine⟩
  have hline : '\n' ∉ s.takeWhile (· ≠ '\n') := fun hmem => by
    simpa using List.mem_takeWhile_imp hmem
  rw [← List.takeWhile_append_dropWhile (p := (· ≠ '\n')) (l := s), accepts_line hline]
  change inLine.Accepts (nextLine s)
  cases hnext : nextLine s with
  | nil => rfl
  | cons c r =>
    have hc : c = '\n' := by
      have := List.head?_dropWhile_not (· ≠ '\n') s
      rw [show (s.dropWhile (· ≠ '\n')).head? = some c from congrArg List.head? hnext] at this
      simpa using this
    subst hc
    rw [hnext] at h
    exact accepts_lineFeed.2 ((accepts_blank_cons (by decide)).1 h)

/-! ## Block comments -/

/-- What holds of the text behind the first separator does not change with a character in front. -/
theorem exists_mem_map_cons {p : Text → Prop} {o : Option (Text × Text)} :
    (∃ cut ∈ o.map fun (before, rest) => (c :: before, rest), p cut.2) ↔ ∃ cut ∈ o, p cut.2 := by
  cases o <;> simp

/-- A block comment goes on to the first end marker. -/
theorem accepts_block : ∀ s : Text,
    (inBlock.Accepts s ↔ ∃ cut ∈ splitOnce? "*/".toList s, between.Accepts cut.2) ∧
    (afterStar.Accepts s ↔ ∃ cut ∈ splitOnce? "*/".toList ('*' :: s), between.Accepts cut.2)
  | [] => ⟨⟨nofun, nofun⟩, ⟨nofun, nofun⟩⟩
  | c :: s => by
    obtain ⟨hblock, hstar⟩ := accepts_block s
    have hpass {d : Char} {r : Text} (hd : after? "*/".toList (d :: r) = none) :
        splitOnce? "*/".toList (d :: r) =
          (splitOnce? "*/".toList r).map fun (before, rest) => (d :: before, rest) := by
      rw [splitOnce?, hd]
    constructor
    · rw [accepts_cons, advance]
      split
      · next hc =>
        subst hc
        simpa using hstar
      · next hc =>
        have hnone : after? "*/".toList (c :: s) = none := if_neg (Ne.symm hc)
        rw [hpass hnone, exists_mem_map_cons, ← hblock]
        simp
    · rw [accepts_cons, advance]
      split
      · next hc =>
        subst hc
        have hend : splitOnce? "*/".toList ('*' :: '/' :: s) = some ([], s) := rfl
        rw [hend]
        simp
      · next hc =>
        have hnone : after? "*/".toList ('*' :: c :: s) = none := if_neg (Ne.symm hc)
        rw [hpass hnone, exists_mem_map_cons]
        split
        · next hc' =>
          subst hc'
          simpa using hstar
        · next hc' =>
          have hnone' : after? "*/".toList (c :: s) = none := if_neg (Ne.symm hc')
          rw [hpass hnone', exists_mem_map_cons, ← hblock]
          simp

/-! ## The language -/

/-- Two hyphens begin a line comment. -/
theorem accepts_dashes : between.Accepts ('-' :: '-' :: s) ↔ inLine.Accepts s := by
  rw [accepts_cons]
  simp [advance, accepts_cons, isBlank, inRanges]

/-- A slash and a star begin a block comment. -/
theorem accepts_slashStar : between.Accepts ('/' :: '*' :: s) ↔ inBlock.Accepts s := by
  rw [accepts_cons]
  simp [advance, accepts_cons, isBlank, inRanges]

/-- A text of blanks and comments is accepted. -/
theorem accepts_of_comments (h : Comments s) : between.Accepts s := by
  induction h with
  | nil => rfl
  | blank hc _ ih => exact (accepts_blank_cons hc).2 ih
  | line hbody _ ih => exact accepts_dashes.2 ((accepts_line hbody).2 (accepts_lineFeed.2 ih))
  | lastLine hbody =>
    have hline := accepts_line (t := []) hbody
    rw [List.append_nil] at hline
    exact accepts_dashes.2 (hline.2 rfl)
  | block hcut _ ih =>
    exact accepts_slashStar.2 ((accepts_block _).1.2 ⟨_, splitOnce?_eq_some_iff.2 hcut, ih⟩)

/-- What is accepted is a text of blanks and comments. -/
theorem comments_of_accepts (h : between.Accepts s) : Comments s := by
  -- By length: a comment is passed at once.
  induction hn : s.length using Nat.strongRecOn generalizing s with
  | ind n ih =>
    cases s with
    | nil => exact .nil
    | cons c s =>
      rcases cases_of_between h with ⟨hc, hs⟩ | ⟨r, he, hr⟩ | ⟨r, he, hr⟩
      · exact .blank hc (ih _ (hn ▸ Nat.lt_succ_self s.length) hs rfl)
      · rw [he, List.length_cons, List.length_cons] at hn
        rw [he]
        by_cases hfeed : '\n' ∈ r
        · obtain ⟨body, rest, rfl, hbody⟩ := List.eq_append_cons_of_mem hfeed
          rw [accepts_line hbody, accepts_lineFeed] at hr
          have hlength : rest.length < n := by
            rw [← hn, List.length_append, List.length_cons]
            omega
          exact .line hbody (ih _ hlength hr rfl)
        · exact .lastLine hfeed
      · rw [he, List.length_cons, List.length_cons] at hn
        rw [he]
        obtain ⟨⟨body, rest⟩, hcut, hrest⟩ := (accepts_block r).1.1 hr
        have hfirst := splitOnce?_eq_some_iff.1 hcut
        have hlength : rest.length < n := by
          rw [← hn, hfirst.eq_append, List.length_append]
          omega
        exact .block hfirst (ih _ hlength hrest rfl)

end CommentState

open CommentState

/-- The scanner accepts the texts of blanks and comments. -/
theorem isOnlyComments_iff {s : Text} : isOnlyComments s ↔ Comments s :=
  ⟨comments_of_accepts, accepts_of_comments⟩

instance (s : Text) : Decidable (Comments s) := decidable_of_iff _ isOnlyComments_iff

/-- Blanks at the end of a text make no difference to what it is. -/
theorem isOnlyComments_trimEnd (s : Text) : isOnlyComments (trimEnd s) = isOnlyComments s := by
  obtain ⟨b, hb, he⟩ := exists_blanks_trimEnd s
  have hends : between.Accepts (trimEnd s ++ b) ↔ between.Accepts (trimEnd s) := by
    rw [accepts_append, Accepts, Option.any_eq_true]
    simp only [accepts_blanks hb]
  rw [← he] at hends
  exact Bool.eq_iff_iff.2 hends.symm

/-! ## One comment after another -/

/-- The text behind the comment that a text starts with. Behind a line comment, the line feed is
left. -/
def afterComment? (s : Text) : Option Text :=
  match after? "--".toList s with
  | some comment => some (nextLine comment)
  | none =>
    (after? "/*".toList s).bind fun comment => (splitOnce? "*/".toList comment).map Prod.snd

/-- Whether a text holds blanks and comments only, asked by passing over blanks and a comment until
the text ends or goes on with neither. -/
inductive Answers : Text → Bool → Prop
  | ends {s : Text} (h : trimStart s = []) : Answers s true
  | refuses {s : Text} (h : trimStart s ≠ []) (hnone : afterComment? (trimStart s) = none) :
      Answers s false
  | passes {s rest : Text} {answer : Bool} (hcomment : afterComment? (trimStart s) = some rest)
      (h : Answers rest answer) : Answers s answer

section
variable {s rest : Text}

/-- A comment is passed over, and the text gets shorter. -/
theorem isOnlyComments_of_afterComment? (h : afterComment? s = some rest) :
    isOnlyComments s = isOnlyComments rest ∧ rest.length < s.length := by
  rw [afterComment?] at h
  split at h
  · next comment hdashes =>
    cases h
    obtain rfl : s = '-' :: '-' :: comment := after?_eq_some_iff.1 hdashes
    have hlength : (nextLine comment).length ≤ comment.length :=
      (List.dropWhile_suffix _).length_le
    refine ⟨Bool.eq_iff_iff.2 (accepts_dashes.trans accepts_nextLine_iff.symm), ?_⟩
    rw [List.length_cons, List.length_cons]
    omega
  · obtain ⟨comment, hopen, hclose⟩ := Option.bind_eq_some_iff.1 h
    obtain ⟨⟨body, rest⟩, hcut, rfl⟩ := Option.map_eq_some_iff.1 hclose
    obtain rfl : s = '/' :: '*' :: comment := after?_eq_some_iff.1 hopen
    have hblock : inBlock.Accepts comment ↔ between.Accepts rest := by
      rw [(accepts_block comment).1, hcut]
      simp
    refine ⟨Bool.eq_iff_iff.2 (accepts_slashStar.trans hblock), ?_⟩
    have hlength := congrArg List.length (eq_of_splitOnce? hcut)
    rw [List.length_append, List.length_append] at hlength
    rw [List.length_cons, List.length_cons]
    dsimp only
    omega

/-- A text is refused that starts with neither a blank nor a comment. -/
theorem isOnlyComments_of_afterComment?_eq_none (hne : s ≠ [])
    (hblank : ∀ c ∈ s.head?, ¬ isBlank c) (h : afterComment? s = none) :
    isOnlyComments s = false := by
  rw [Bool.eq_false_iff]
  intro haccepts
  obtain ⟨c, s, rfl⟩ := List.exists_cons_of_ne_nil hne
  rcases cases_of_between haccepts with ⟨hc, -⟩ | ⟨r, he, -⟩ | ⟨r, he, hr⟩
  · exact hblank c rfl hc
  · rw [he] at h
    cases h
  · obtain ⟨cut, hcut, -⟩ := (accepts_block r).1.1 hr
    have hafter : afterComment? ('/' :: '*' :: r) = (splitOnce? "*/".toList r).map Prod.snd := rfl
    rw [he, hafter, hcut] at h
    cases h

/-- Passing over one comment after another comes to the answer of the scanner. -/
theorem eq_isOnlyComments_of_answers {answer : Bool} (h : Answers s answer) :
    answer = isOnlyComments s := by
  have htrim (s : Text) : isOnlyComments (trimStart s) = isOnlyComments s :=
    Bool.eq_iff_iff.2 accepts_trimStart
  induction h with
  | @ends s h =>
    rw [← htrim, h]
    rfl
  | @refuses s h hnone =>
    rw [← htrim,
      isOnlyComments_of_afterComment?_eq_none h (not_isBlank_head_trimStart s) hnone]
  | @passes s rest answer hcomment _ ih =>
    rw [← htrim, (isOnlyComments_of_afterComment? hcomment).1, ih]

/-- Passing over one comment after another comes to an end. -/
theorem exists_answers (s : Text) : ∃ answer, Answers s answer := by
  induction hn : s.length using Nat.strongRecOn generalizing s with
  | ind n ih =>
    by_cases hs : trimStart s = []
    · exact ⟨true, .ends hs⟩
    · cases hcomment : afterComment? (trimStart s) with
      | none => exact ⟨false, .refuses hs hcomment⟩
      | some rest =>
        have hshorter := (isOnlyComments_of_afterComment? hcomment).2
        have htrim : (trimStart s).length ≤ s.length := (List.dropWhile_suffix _).length_le
        obtain ⟨answer, hanswer⟩ := ih rest.length (by omega) rest rfl
        exact ⟨answer, .passes hcomment hanswer⟩

end

/-! ## Behind a call -/

/-- For its event a call needs its arguments only, unless something else than comments follows. -/
theorem readCallOf_event (query : Text) (args : List Text) (rest : Text) :
    readCallOf query .event args rest =
      if isOnlyComments rest then readCallOf [] .event args []
      else .error (.malformed (.textAfterCall .event (trim rest))) := by
  cases args with
  | nil => rfl
  | cons name more => rfl

/-- The text behind a call for an event is read up to its last blanks. -/
theorem readCall_event {inner : Text} (hclosed : Closed inner) (c : Text) :
    readCall (Kind.event.head ++ (inner ++ ')' :: c)) =
      readArguments inner >>= fun args =>
        if isOnlyComments c then do return some (← readCallOf [] .event args [])
        else .error (.malformed (.textAfterCall .event (trim c))) := by
  have hlast : ∀ d ∈ (inner ++ [')']).getLast?, ¬ isBlank d := by
    rw [List.getLast?_append_of_ne_nil _ (List.cons_ne_nil ')' [])]
    rintro _ ⟨⟩
    decide
  have hend : trimEnd (inner ++ ')' :: c) = inner ++ ')' :: trimEnd c := by
    simpa using trimEnd_append_of_last hlast c
  have htrim : trim (trimEnd c) = trim c := by
    obtain ⟨b, hb, he⟩ := exists_blanks_trimEnd c
    conv_rhs => rw [he]
    exact (trim_blanks_append isAllBlank_nil hb (trimEnd c)).symm
  rw [readCall_head, hend, splitCall?_append hclosed]
  refine congrArg (readArguments inner >>= ·) (funext fun args => ?_)
  rw [readCallOf_event, isOnlyComments_trimEnd, htrim]
  split <;> rfl

/-- The scanner accepts exactly the texts of blanks and comments, and passing over one comment after
another always comes to an end, with the same answer. Behind a call for an event such a text changes
nothing, whatever blanks it ends in, and any other text makes the call malformed. -/
theorem isOnlyComments_grammar :
    (∀ s, (∃ answer, Answers s answer) ∧ (∀ answer, Answers s answer → answer = isOnlyComments s) ∧
      (isOnlyComments s = true ↔ Comments s)) ∧
    ∀ (inner c : Text) (call : Option Call), Closed inner →
      readCall (Kind.event.head ++ (inner ++ [')'])) = .ok call →
      (Comments c → readCall (Kind.event.head ++ (inner ++ ')' :: c)) = .ok call) ∧
      (¬ Comments c → readCall (Kind.event.head ++ (inner ++ ')' :: c)) =
        .error (.malformed (.textAfterCall .event (trim c)))) := by
  refine ⟨fun s => ⟨exists_answers s, fun answer => eq_isOnlyComments_of_answers,
    isOnlyComments_iff⟩, fun inner c call hclosed hcall => ?_⟩
  rw [readCall_event hclosed] at hcall
  obtain ⟨args, hargs, hcall⟩ := bind_eq_ok_iff.1 hcall
  rw [readCall_event hclosed, hargs]
  refine ⟨fun hc => ?_, fun hc => ?_⟩
  · rw [← isOnlyComments_iff] at hc
    rw [hc]
    exact hcall
  · rw [← isOnlyComments_iff, Bool.not_eq_true] at hc
    rw [hc]
    rfl

/-- Comments of all three forms, with the marks of the others inside. -/
def mixedComments : Text := "\t/* -- /* **/\n-- it's */ /*\r\n/*/*/ --) ".toList

/-- Comments of all three forms change nothing behind a call, and another clause behind a comment
makes it malformed. -/
theorem isOnlyComments_grammar_mixedComments :
    Answers mixedComments true ∧ Comments mixedComments ∧
    Closed "login, max(__size)".toList ∧
    readCall "$event(login, max(__size))".toList =
      .ok (some (.event "login".toList (some "max(__size)".toList))) ∧
    readCall (Kind.event.head ++ ("login, max(__size)".toList ++ ')' :: mixedComments)) =
      .ok (some (.event "login".toList (some "max(__size)".toList))) ∧
    ¬ Comments " -- ok\nLIMIT 5".toList ∧
    readCall (Kind.event.head ++ ("login, max(__size)".toList ++ ')' :: " -- ok\nLIMIT 5".toList)) =
      .error (.malformed (.textAfterCall .event "-- ok\nLIMIT 5".toList)) := by
  have hinner : Closed "login, max(__size)".toList := by decide
  have hcall : readCall (Kind.event.head ++ ("login, max(__size)".toList ++ [')'])) =
      .ok (some (.event "login".toList (some "max(__size)".toList))) := by decide +kernel
  have hcomments : isOnlyComments mixedComments = true := by decide
  have hclause : ¬ Comments " -- ok\nLIMIT 5".toList := by decide
  obtain ⟨hscan, hread⟩ := isOnlyComments_grammar
  obtain ⟨⟨answer, hanswer⟩, hsame, hiff⟩ := hscan mixedComments
  have htrue := (hsame answer hanswer).trans hcomments
  exact ⟨htrue ▸ hanswer, hiff.1 hcomments, hinner, hcall,
    (hread _ _ _ hinner hcall).1 (hiff.1 hcomments), hclause,
    (hread _ _ _ hinner hcall).2 hclause⟩

end SeriesQuery.Macro
