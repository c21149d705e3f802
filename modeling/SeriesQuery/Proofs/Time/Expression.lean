import SeriesQuery.Proofs.Failure
import SeriesQuery.Proofs.Text.Blank
import SeriesQuery.Proofs.Text.Separator
import SeriesQuery.Proofs.Time.Step

/-!
# The grammar of date expressions

A date expression is an anchor (`Anchored`) and a text of steps. A text spells a list of steps when
it is their spellings one behind the other (`SpellsSteps`); each step ends with the letter of its
unit, so no text spells two lists, and the reader finds the one there is
(`readSteps?_eq_some_iff`). The steps run from the anchor, each from the instant that the one before
led to (`DateStep.Leads`), until one leads nowhere (`Run`).

`resolveDate_grammar` says that this is all there is to a date expression. As the steps of a longer
text run on from where the shorter one stopped, an expression can be continued from its instant as
from a present.
-/

namespace SeriesQuery

open Text

/-! ## Steps -/

/-- The letter of a unit is read as that unit, whatever follows. -/
theorem DateUnit.read?_letter (unit : DateUnit) (r : Text) :
    read? (unit.letter :: r) = some (unit, r) := by cases unit <;> rfl

/-- No unit is written as a digit. -/
theorem DateUnit.not_isDigit_letter (unit : DateUnit) : ¬ unit.letter.isDigit := by
  cases unit <;> decide

/-- A sign is read back. -/
theorem Sign.ofChar?_char (sign : Sign) : ofChar? sign.char = some sign := by cases sign <;> rfl

namespace DateStep

/-- The step can be written: its amount is in ASCII digits and a signed word of 64 bits. -/
def IsWritable : DateStep → Prop
  | round _ => True
  | shift _ digits _ => (∀ c ∈ digits, c.isDigit) ∧ IsWord (digitsValue digits)

/-- A step is read back from its spelling, whatever follows. -/
theorem read?_spell_append {step : DateStep} (h : step.IsWritable) (r : Text) :
    read? (step.spell ++ r) = some (step, r) := by
  cases step with
  | round unit =>
    have hletter := unit.read?_letter r
    simp only [spell, List.cons_append, List.nil_append, read?, hletter, if_true, Option.map_some]
  | shift sign digits unit =>
    obtain ⟨hdigits, hword⟩ := h
    have hslash : sign.char ≠ '/' := by cases sign <;> decide
    have hhead : ∀ c ∈ (unit.letter :: r).head?, ¬ c.isDigit := by
      rintro _ ⟨⟩
      exact unit.not_isDigit_letter
    have htake := takeWhile_append_of_head hdigits hhead
    have hdrop := dropWhile_append_of_head hdigits hhead
    simp only [spell, List.cons_append, List.append_assoc, List.nil_append, read?, if_neg hslash,
      sign.ofChar?_char, htake, if_pos hword, hdrop, unit.read?_letter, Option.map_some]

/-- A step that is read can be written. -/
theorem isWritable_of_read? {s r : Text} {step : DateStep} (h : read? s = some (step, r)) :
    step.IsWritable := by
  cases s with
  | nil => cases h
  | cons c t =>
    simp only [read?] at h
    split at h
    · obtain ⟨⟨unit, rest⟩, -, he⟩ := Option.map_eq_some_iff.1 h
      cases he
      trivial
    · split at h
      · cases h
      · split at h
        · next hword =>
          obtain ⟨⟨unit, rest⟩, -, he⟩ := Option.map_eq_some_iff.1 h
          cases he
          exact ⟨fun c hc => List.mem_takeWhile_imp hc, hword⟩
        · cases h

end DateStep

/-- The text is the spellings of the steps, one behind the other. -/
structure SpellsSteps (steps : List DateStep) (s : Text) : Prop where
  isWritable : ∀ step ∈ steps, step.IsWritable
  eq_flatMap : s = steps.flatMap DateStep.spell

section
variable {steps : List DateStep} {s : Text}

/-- Behind the first step, the reader goes on with the rest. -/
theorem readSteps?_of_read? {step : DateStep} {r : Text} (h : DateStep.read? s = some (step, r)) :
    readSteps? s = (readSteps? r).map (step :: ·) := by
  have hread : dateStep.read? s = some (step, r) := h
  rw [readSteps?, dateStep.segments_of_read? hread, List.mapM_cons]
  exact Option.map_eq_bind.symm

/-- Behind spelled steps the reader goes on with what follows. -/
theorem readSteps?_append (r : Text) : ∀ {steps : List DateStep},
    (∀ step ∈ steps, step.IsWritable) →
      readSteps? (steps.flatMap DateStep.spell ++ r) = (readSteps? r).map (steps ++ ·)
  | [], _ => (Option.map_id_apply ..).symm
  | step :: steps, h => by
    have hread := DateStep.read?_spell_append (h step (List.mem_cons_self ..))
      (steps.flatMap DateStep.spell ++ r)
    rw [List.flatMap_cons, List.append_assoc, readSteps?_of_read? hread,
      readSteps?_append r fun t ht => h t (List.mem_cons_of_mem _ ht), Option.map_map]
    rfl

/-- Behind a text of steps the reader goes on with what follows. -/
theorem SpellsSteps.readSteps?_append (h : SpellsSteps steps s) (r : Text) :
    readSteps? (s ++ r) = (readSteps? r).map (steps ++ ·) := by
  rw [h.eq_flatMap, SeriesQuery.readSteps?_append r h.isWritable]

/-- Segments that are steps only are tokens only. -/
theorem eq_map_token_of_mapM : ∀ {segments : List (Segment DateStep)} {steps : List DateStep},
    segments.mapM (fun
      | .token step => some step
      | .plain _ => none) = some steps → segments = steps.map .token
  | [], steps, h => by
    cases h
    rfl
  | .plain c :: segments, steps, h => by
    rw [List.mapM_cons] at h
    cases h
  | .token step :: segments, steps, h => by
    rw [List.mapM_cons] at h
    obtain ⟨first, hfirst, h⟩ := Option.bind_eq_some_iff.1 h
    obtain ⟨rest, hrest, he⟩ := Option.bind_eq_some_iff.1 h
    cases hfirst
    cases he
    rw [eq_map_token_of_mapM hrest, List.map_cons]

/-- The reader finds the steps that a text spells, and no others. -/
theorem readSteps?_eq_some_iff : readSteps? s = some steps ↔ SpellsSteps steps s := by
  constructor
  · intro h
    have hsegments : dateStep.segments s = steps.map .token := eq_map_token_of_mapM h
    refine ⟨fun step hstep => ?_, ?_⟩
    · have hmem : .token step ∈ dateStep.segments s := hsegments ▸ List.mem_map_of_mem hstep
      obtain ⟨u, r, hread⟩ := dateStep.exists_read?_of_mem_segmentsFrom hmem
      exact DateStep.isWritable_of_read? hread
    · have hprint := dateStep.print_segments s
      rw [hsegments, TokenRule.print, Segment.fill, List.flatMap_map] at hprint
      exact hprint.symm
  · intro h
    have hread := h.readSteps?_append []
    rwa [List.append_nil, show readSteps? [] = some [] from rfl, Option.map_some,
      List.append_nil] at hread

end

/-! ## Running them -/

/-- The steps lead from the instant to this outcome. Each goes on from where the one before led to,
and the first one that leads nowhere ends the run: with the fault that its result is not
representable, unless it aborts. -/
inductive Run (roundUp : Bool) : Instant → List DateStep → Except DateFault Instant → Prop
  | done {d : Instant} : Run roundUp d [] (.ok d)
  | step {d d' : Instant} {step : DateStep} {steps : List DateStep}
      {outcome : Except DateFault Instant} (hstep : step.Leads roundUp d d')
      (hrun : Run roundUp d' steps outcome) : Run roundUp d (step :: steps) outcome
  | unrepresentable {d : Instant} {step : DateStep} {steps : List DateStep}
      (hnone : ∀ d', ¬ step.Leads roundUp d d') (hgoes : ¬ step.Aborts d) :
      Run roundUp d (step :: steps) (.error .unrepresentable)
  | abort {d : Instant} {step : DateStep} {steps : List DateStep} (habort : step.Aborts d) :
      Run roundUp d (step :: steps) (.error .abort)

namespace DateExpression

variable {roundUp : Bool} {anchor d : Instant}

/-- Steps are evaluated by running them. -/
theorem run_evaluate (roundUp : Bool) : ∀ (steps : List DateStep) (anchor : Instant),
    Run roundUp anchor steps (evaluate roundUp ⟨anchor, steps⟩)
  | [], _ => .done
  | step :: steps, anchor => by
    rw [evaluate, List.foldlM_cons]
    cases hstep : step.apply roundUp anchor with
    | ok d => exact .step (DateStep.apply_eq_ok_iff.1 hstep) (run_evaluate roundUp steps d)
    | error fault =>
      cases fault with
      | unrepresentable =>
        obtain ⟨hnone, hgoes⟩ := DateStep.apply_eq_unrepresentable_iff.1 hstep
        exact .unrepresentable hnone hgoes
      | abort => exact .abort (DateStep.apply_eq_abort_iff.1 hstep)

/-- A run has one outcome. -/
theorem run_iff {steps : List DateStep} {outcome : Except DateFault Instant} :
    Run roundUp anchor steps outcome ↔ outcome = evaluate roundUp ⟨anchor, steps⟩ := by
  refine ⟨fun h => ?_, fun h => h ▸ run_evaluate roundUp steps anchor⟩
  induction h with
  | done => rfl
  | step hstep _ ih =>
    rw [ih, evaluate, evaluate, List.foldlM_cons, DateStep.apply_eq_ok_iff.2 hstep]
    rfl
  | unrepresentable hnone hgoes =>
    rw [evaluate, List.foldlM_cons, DateStep.apply_eq_unrepresentable_iff.2 ⟨hnone, hgoes⟩]
    rfl
  | abort habort =>
    rw [evaluate, List.foldlM_cons, DateStep.apply_eq_abort_iff.2 habort]
    rfl

/-- More steps go on from where the first ones led to. -/
theorem evaluate_append {steps : List DateStep} (h : evaluate roundUp ⟨anchor, steps⟩ = .ok d)
    (more : List DateStep) :
    evaluate roundUp ⟨anchor, steps ++ more⟩ = evaluate roundUp ⟨d, more⟩ := by
  rw [evaluate] at h
  rw [evaluate, List.foldlM_append, h]
  rfl

end DateExpression

/-! ## Anchors -/

/-- The anchor of an expression, if it has one, and the text of its steps: the word for the present
in front, or else an absolute date up to the first two bars, or else an absolute date alone. -/
inductive Anchored (now : Instant) (s : Text) (anchor? : Option Instant) (math : Text) : Prop
  | present (hs : s = DateExpression.present ++ math) (hanchor : anchor? = some now)
  | bars {before : Text} (hpresent : ¬ DateExpression.present <+: s)
      (hbars : CutsAtFirst "||".toList s before math) (hanchor : anchor? = readAbsolute? before)
  | alone (hpresent : ¬ DateExpression.present <+: s) (hbars : ¬ "||".toList <:+: s)
      (hmath : math = []) (hanchor : anchor? = readAbsolute? s)

section
variable {now : Instant} {s math : Text} {anchor? : Option Instant}

/-- Every text has an anchor or an absolute date that is none, and a text of steps. -/
theorem exists_anchored (now : Instant) (s : Text) :
    ∃ anchor? math, Anchored now s anchor? math := by
  by_cases hpresent : DateExpression.present <+: s
  · obtain ⟨math, rfl⟩ := hpresent
    exact ⟨_, math, .present rfl rfl⟩
  · cases hs : splitOnce? "||".toList s with
    | none => exact ⟨_, [], .alone hpresent (splitOnce?_eq_none_iff.1 hs) rfl rfl⟩
    | some p => exact ⟨_, p.2, .bars hpresent (splitOnce?_eq_some_iff.1 hs) rfl⟩

/-- A text has one anchor and one text of steps. -/
theorem Anchored.unique {anchor?' : Option Instant} {math' : Text} (h : Anchored now s anchor? math)
    (h' : Anchored now s anchor?' math') : anchor?' = anchor? ∧ math' = math := by
  cases h with
  | present hs hanchor =>
    subst hs
    cases h' with
    | present hs' hanchor' =>
      exact ⟨hanchor'.trans hanchor.symm, (List.append_cancel_left hs').symm⟩
    | bars hpresent' => exact absurd ⟨math, rfl⟩ hpresent'
    | alone hpresent' => exact absurd ⟨math, rfl⟩ hpresent'
  | bars hpresent hbars hanchor =>
    cases h' with
    | present hs' => exact absurd ⟨math', hs'.symm⟩ hpresent
    | bars _ hbars' hanchor' =>
      obtain ⟨rfl, rfl⟩ := hbars.unique hbars'
      exact ⟨hanchor'.trans hanchor.symm, rfl⟩
    | alone _ hbars' => exact absurd ⟨_, _, hbars.eq_append.symm⟩ hbars'
  | alone hpresent hbars hmath hanchor =>
    cases h' with
    | present hs' => exact absurd ⟨math', hs'.symm⟩ hpresent
    | bars _ hbars' => exact absurd ⟨_, _, hbars'.eq_append.symm⟩ hbars
    | alone _ _ hmath' hanchor' =>
      exact ⟨hanchor'.trans hanchor.symm, hmath'.trans hmath.symm⟩

/-- The reader takes the anchor and reads the text of steps. -/
theorem Anchored.read?_eq (h : Anchored now s anchor? math) :
    DateExpression.read? now s =
      anchor?.bind fun anchor => (readSteps? math).map fun steps => ⟨anchor, steps⟩ := by
  have hnone (hpresent : ¬ DateExpression.present <+: s) :
      after? DateExpression.present s = none := by
    cases hs : after? DateExpression.present s with
    | none => rfl
    | some r => exact absurd ⟨r, (after?_eq_some_iff.1 hs).symm⟩ hpresent
  cases h with
  | present hs hanchor =>
    rw [DateExpression.read?, after?_eq_some_iff.2 hs, hanchor, Option.bind_some,
      Option.map_eq_bind]
    rfl
  | bars hpresent hbars hanchor =>
    rw [DateExpression.read?, hnone hpresent, splitOnce?_eq_some_iff.2 hbars, hanchor]
    simp only [Option.map_eq_bind]
    rfl
  | alone hpresent hbars hmath hanchor =>
    rw [DateExpression.read?, hnone hpresent, splitOnce?_eq_none_iff.2 hbars, hanchor, hmath]
    rfl

/-- The bars that end an anchor are where they were when the text goes on, and so is the anchor. -/
theorem Anchored.append (h : Anchored now s anchor? math)
    (hs : DateExpression.present <+: s ∨ "||".toList <:+: s) (more : Text) :
    Anchored now (s ++ more) anchor? (math ++ more) := by
  cases h with
  | present hs' hanchor => exact .present (by rw [hs', List.append_assoc]) hanchor
  | bars hpresent hbars hanchor =>
    refine .bars (fun hmore => ?_) (hbars.append more) hanchor
    -- The word for the present holds no bar, so it does not reach over the end of the text.
    rcases List.prefix_or_prefix_of_prefix hmore ⟨more, rfl⟩ with hshort | hlong
    · exact hpresent hshort
    · have hbar : '|' ∈ s := by
        rw [hbars.eq_append]
        simp
      exact absurd (hlong.subset hbar) (by decide)
  | alone hpresent hbars =>
    exact (hs.elim hpresent hbars).elim

end

/-! ## Resolving -/

/-- What a fault in the steps of a text is to a request: the text is no date, or the run ends. -/
def DateFault.failure (text : Text) : DateFault → Failure
  | unrepresentable => .error (.invalidDate text)
  | abort => .abort

/-- What an anchor and a text of steps lead to. Where there is no anchor or the text spells no
steps, they are no date. -/
def DateExpression.outcome (roundUp : Bool) (anchor? : Option Instant) (math : Text) :
    Except DateFault Instant :=
  match anchor?, readSteps? math with
  | some anchor, some steps => evaluate roundUp ⟨anchor, steps⟩
  | _, _ => .error .unrepresentable

section
variable {now d : Instant} {roundUp : Bool} {text math : Text} {anchor? : Option Instant}

/-- A date expression is resolved to what its anchor and its steps lead to. -/
theorem resolveDate_of_anchored (h : Anchored now (trim text) anchor? math) :
    resolveDate now roundUp text =
      (DateExpression.outcome roundUp anchor? math).mapError (DateFault.failure (trim text)) := by
  rw [resolveDate, h.read?_eq]
  cases anchor? with
  | none => rfl
  | some anchor =>
    cases hsteps : readSteps? math with
    | none => simp only [DateExpression.outcome, hsteps]; rfl
    | some steps =>
      simp only [DateExpression.outcome, hsteps, Option.bind_some, Option.map_some]
      cases DateExpression.evaluate roundUp ⟨anchor, steps⟩ with
      | ok d => rfl
      | error fault => cases fault <;> rfl

/-- Steps that a text spells are evaluated from the anchor. -/
theorem DateExpression.outcome_of_spellsSteps {anchor : Instant} {steps : List DateStep}
    (h : SpellsSteps steps math) :
    outcome roundUp (some anchor) math = evaluate roundUp ⟨anchor, steps⟩ := by
  simp only [outcome, readSteps?_eq_some_iff.2 h]

/-- Steps behind others lead where they lead from the instant of the others. -/
theorem DateExpression.outcome_append (h : outcome roundUp anchor? math = .ok d) (more : Text) :
    outcome roundUp anchor? (math ++ more) = outcome roundUp (some d) more := by
  unfold outcome at h
  split at h
  · next anchor steps hsteps =>
    simp only [outcome, (readSteps?_eq_some_iff.1 hsteps).readSteps?_append]
    cases readSteps? more with
    | none => rfl
    | some more => exact evaluate_append h more
  · cases h

/-- An expression that ends with its steps goes on as one at the present it has led to. -/
theorem exists_outcome_append (htrim : trim text = text) (hd : resolveDate now roundUp text = .ok d)
    (hs : DateExpression.present <+: text ∨ "||".toList <:+: text) (more : Text) :
    ∃ outcome : Except DateFault Instant,
      resolveDate now roundUp (text ++ more) =
        outcome.mapError (DateFault.failure (trim (text ++ more))) ∧
      resolveDate d roundUp (DateExpression.present ++ more) =
        outcome.mapError (DateFault.failure (trim (DateExpression.present ++ more))) := by
  obtain ⟨anchor?, math, h⟩ := exists_anchored now text
  have hne : text ≠ [] := by
    rintro rfl
    rcases hs with hs | hs
    · exact absurd (List.prefix_nil.1 hs) (by decide)
    · exact absurd (List.infix_nil.1 hs) (by decide)
  have hlong : trim (text ++ more) = text ++ trimEnd more :=
    (hasBareEnds_iff.2 htrim).trim_append hne more
  have hpresent : trim (DateExpression.present ++ more) = DateExpression.present ++ trimEnd more :=
    (hasBareEnds_iff.2 (by decide)).trim_append (by decide) more
  have houtcome : DateExpression.outcome roundUp anchor? math = .ok d := by
    rw [resolveDate_of_anchored (htrim.symm ▸ h)] at hd
    cases hresult : DateExpression.outcome roundUp anchor? math with
    | ok d' =>
      rw [hresult] at hd
      cases hd
      rfl
    | error fault =>
      rw [hresult] at hd
      cases hd
  refine ⟨DateExpression.outcome roundUp (some d) (trimEnd more), ?_, ?_⟩
  · rw [resolveDate_of_anchored (hlong.symm ▸ h.append hs (trimEnd more)),
      DateExpression.outcome_append houtcome]
  · exact resolveDate_of_anchored (hpresent.symm ▸ .present rfl rfl)

/-- A date expression has one anchor and one text of steps. It is no date unless the anchor is one
and the text spells steps; these are then the only ones it spells, and the expression is what their
run from the anchor leads to. An expression that ends with its steps can be continued: more text
behind it leads where it leads behind the word for the present, at the instant of the expression. -/
theorem resolveDate_grammar (now : Instant) (roundUp : Bool) (text : Text) :
    ∃ anchor? math, Anchored now (trim text) anchor? math ∧
      (∀ anchor?' math', Anchored now (trim text) anchor?' math' →
        anchor?' = anchor? ∧ math' = math) ∧
      ((anchor? = none ∨ ¬ ∃ steps, SpellsSteps steps math) →
        resolveDate now roundUp text = .error (.error (.invalidDate (trim text)))) ∧
      (∀ anchor steps, anchor? = some anchor → SpellsSteps steps math →
        (∀ steps', SpellsSteps steps' math → steps' = steps) ∧
        ∃ outcome, (∀ o, Run roundUp anchor steps o ↔ o = outcome) ∧
          resolveDate now roundUp text = outcome.mapError (DateFault.failure (trim text))) ∧
      ∀ d, resolveDate now roundUp (trim text) = .ok d →
        DateExpression.present <+: trim text ∨ "||".toList <:+: trim text →
        ∀ more, ∃ outcome : Except DateFault Instant,
          resolveDate now roundUp (trim text ++ more) =
            outcome.mapError (DateFault.failure (trim (trim text ++ more))) ∧
          resolveDate d roundUp (DateExpression.present ++ more) =
            outcome.mapError (DateFault.failure (trim (DateExpression.present ++ more))) := by
  obtain ⟨anchor?, math, h⟩ := exists_anchored now (trim text)
  refine ⟨anchor?, math, h, fun _ _ h' => h.unique h', fun hnone => ?_, ?_, ?_⟩
  · have houtcome : DateExpression.outcome roundUp anchor? math = .error .unrepresentable := by
      unfold DateExpression.outcome
      split
      · next steps hsteps =>
        rcases hnone with hnone | hnone
        · cases hnone
        · exact absurd ⟨steps, readSteps?_eq_some_iff.1 hsteps⟩ hnone
      · rfl
    rw [resolveDate_of_anchored h, houtcome]
    rfl
  · rintro anchor steps rfl hsteps
    refine ⟨fun steps' hsteps' => ?_, _, fun o => DateExpression.run_iff, ?_⟩
    · exact Option.some.inj <|
        (readSteps?_eq_some_iff.2 hsteps').symm.trans (readSteps?_eq_some_iff.2 hsteps)
    · rw [resolveDate_of_anchored h, DateExpression.outcome_of_spellsSteps hsteps]
  · intro d hd hs more
    exact exists_outcome_append (hasBareEnds_iff.1 (hasBareEnds_trim text)) hd hs more

end

/-- A month and then ninety minutes back from a morning in January 2024, at the end of the hour. -/
def endOfHour : Text := " 2024-01-31 10:00:00||+M-90m/h ".toList

/-- The three steps are run from that morning: to the last day of February, ninety minutes back, and
up to the end of the hour. More steps behind them lead on as from that present. Rounded down, a
present goes to the Monday of its week. -/
theorem resolveDate_grammar_endOfHour :
    resolveDate .epoch true endOfHour = .ok { seconds := 1709197199, nanos := 999000000 } ∧
    resolveDate { seconds := 1709197199, nanos := 999000000 } true "now-w/d".toList =
      .ok { seconds := 1708646399, nanos := 999000000 } ∧
    resolveDate .epoch true "2024-01-31 10:00:00||+M-90m/h-w/d".toList =
      .ok { seconds := 1708646399, nanos := 999000000 } ∧
    resolveDate { seconds := 1710344537, nanos := 500000000 } false "now/w".toList =
      .ok { seconds := 1710115200, nanos := 0 } := by
  have hbars : splitOnce? "||".toList (trim endOfHour) =
      some ("2024-01-31 10:00:00".toList, "+M-90m/h".toList) := by decide +kernel
  have hanchored : Anchored .epoch (trim endOfHour)
      (some { seconds := 1706695200, nanos := 0 }) "+M-90m/h".toList :=
    .bars (by decide +kernel) (splitOnce?_eq_some_iff.1 hbars) (by decide +kernel)
  have hsteps :
      SpellsSteps [.shift .plus [] .month, .shift .minus "90".toList .minute, .round .hour]
        "+M-90m/h".toList := readSteps?_eq_some_iff.1 (by decide +kernel)
  have hmonth : DateStep.Leads true { seconds := 1706695200, nanos := 0 } (.shift .plus [] .month)
      { seconds := 1709200800, nanos := 0 } :=
    .months .one ⟨by decide +kernel, by decide +kernel, by decide, rfl⟩
  have hback : DateStep.Leads true { seconds := 1709200800, nanos := 0 }
      (.shift .minus "90".toList .minute) { seconds := 1709195400, nanos := 0 } :=
    .seconds (.numberBack (by decide)) (by decide) (.outside (by decide) (by decide) rfl)
  have hround : DateStep.Leads true { seconds := 1709195400, nanos := 0 } (.round .hour)
      { seconds := 1709197199, nanos := 999000000 } :=
    .up rfl (by decide) (by decide) (by decide) rfl
  have hrun := Run.step hmonth (.step hback (.step hround .done))
  obtain ⟨anchor?, math, -, hunique, -, houtcome, hmore⟩ :=
    resolveDate_grammar .epoch true endOfHour
  obtain ⟨rfl, rfl⟩ := hunique _ _ hanchored
  obtain ⟨-, outcome, houtcome, hresolve⟩ := houtcome _ _ rfl hsteps
  obtain rfl := (houtcome _).1 hrun
  refine ⟨hresolve, by decide +kernel, ?_, ?_⟩
  · have htrim : trim endOfHour = "2024-01-31 10:00:00||+M-90m/h".toList := by decide +kernel
    have hpresent : resolveDate { seconds := 1709197199, nanos := 999000000 } true
        "now-w/d".toList = .ok { seconds := 1708646399, nanos := 999000000 } := by decide +kernel
    have hstart : resolveDate .epoch true "2024-01-31 10:00:00||+M-90m/h".toList =
        .ok { seconds := 1709197199, nanos := 999000000 } := by decide +kernel
    rw [htrim] at hmore
    obtain ⟨outcome, hlong, hshort⟩ :=
      hmore _ hstart (.inr ⟨"2024-01-31 10:00:00".toList, "+M-90m/h".toList, rfl⟩) "-w/d".toList
    obtain rfl := mapError_eq_ok_iff.1 (hshort.symm.trans hpresent)
    exact hlong
  · have hweek : DateStep.Leads false { seconds := 1710344537, nanos := 500000000 } (.round .week)
        { seconds := 1710115200, nanos := 0 } := .down rfl (by decide) rfl
    obtain ⟨anchor?, math, -, hunique, -, houtcome, -⟩ :=
      resolveDate_grammar { seconds := 1710344537, nanos := 500000000 } false "now/w".toList
    obtain ⟨rfl, rfl⟩ := hunique _ "/w".toList (.present (by decide) rfl)
    obtain ⟨-, outcome, houtcome, hresolve⟩ :=
      houtcome _ [.round .week] rfl (readSteps?_eq_some_iff.1 (by decide +kernel))
    obtain rfl := (houtcome _).1 (.step hweek .done)
    exact hresolve

end SeriesQuery
