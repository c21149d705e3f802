import SeriesQuery.Macro.Expansion
import SeriesQuery.Time.Range

/-!
# Which errors arise where

`FailsWith p x` says that every error of the computation `x` has the property `p`. Two stages of a
compilation can fail, and their errors are told apart by `QueryError.isRecoverable`: those of a
macro call are recoverable, whether reading (`readCall_failsWith`) or expanding it
(`expand_failsWith`), and those of the time values never are (`resolve_failsWith`). The split of a
call into arguments has errors of one shape only (`readArguments_failsWith`).
-/

namespace SeriesQuery

open Text

section
variable {ε α β : Type} {p : ε → Prop}

/-- A sequence has a result when its first step does and the step behind it does. -/
theorem bind_eq_ok_iff {x : Except ε α} {f : α → Except ε β} {b : β} :
    (x >>= f) = .ok b ↔ ∃ a, x = .ok a ∧ f a = .ok b := by
  cases x with
  | error e => exact ⟨nofun, fun ⟨_, h, _⟩ => nomatch h⟩
  | ok a => exact ⟨fun h => ⟨a, rfl, h⟩, fun ⟨_, h, hf⟩ => by cases h; exact hf⟩

/-- A sequence has an error when its first step has it, or the step behind a result of that. -/
theorem bind_eq_error_iff {x : Except ε α} {f : α → Except ε β} {e : ε} :
    (x >>= f) = .error e ↔ x = .error e ∨ ∃ a, x = .ok a ∧ f a = .error e := by
  cases x with
  | error e' =>
    refine ⟨fun h => .inl ?_, fun h => ?_⟩
    · cases h
      rfl
    · rcases h with h | ⟨a, h, -⟩
      · cases h
        rfl
      · cases h
  | ok a =>
    refine ⟨fun h => .inr ⟨a, rfl, h⟩, fun h => ?_⟩
    rcases h with h | ⟨b, h, hf⟩
    · cases h
    · cases h
      exact hf

/-- Translating errors changes no result. -/
theorem mapError_eq_ok_iff {ε' : Type} {x : Except ε α} {f : ε → ε'} {a : α} :
    x.mapError f = .ok a ↔ x = .ok a := by
  cases x with
  | error e => exact ⟨nofun, nofun⟩
  | ok a' => exact ⟨fun h => by cases h; rfl, fun h => by cases h; rfl⟩

/-- Every error of the computation has the property. -/
def FailsWith (p : ε → Prop) (x : Except ε α) : Prop := ∀ e, x = .error e → p e

theorem failsWith_ok (a : α) : FailsWith p (.ok a : Except ε α) := nofun

theorem failsWith_error {e : ε} (h : p e) : FailsWith p (.error e : Except ε α) := by
  rintro _ ⟨⟩
  exact h

theorem FailsWith.mono {q : ε → Prop} {x : Except ε α} (h : FailsWith p x) (hpq : ∀ e, p e → q e) :
    FailsWith q x := fun e he => hpq e (h e he)

/-- A sequence fails where its first step does, or where the step behind it does. -/
theorem FailsWith.bind {x : Except ε α} {f : α → Except ε β} (hx : FailsWith p x)
    (hf : ∀ a, FailsWith p (f a)) : FailsWith p (x >>= f) := by
  cases x with
  | error e => exact failsWith_error (hx e rfl)
  | ok a => exact hf a

/-- A list of computations fails in the way that its members fail. -/
theorem FailsWith.mapM {f : α → Except ε β} (hf : ∀ a, FailsWith p (f a)) :
    ∀ xs : List α, FailsWith p (xs.mapM f)
  | [] => failsWith_ok []
  | x :: xs => by
    rw [List.mapM_cons]
    exact (hf x).bind fun b => (FailsWith.mapM hf xs).bind fun bs => failsWith_ok (b :: bs)

end

namespace QueryError

/-- The error says that a call is malformed. -/
def IsMalformed (e : QueryError) : Prop := ∃ cause, e = .malformed cause

/-- The error lies in the macro call. -/
def IsOfCall (e : QueryError) : Prop := e.isRecoverable = true

/-- The errors that lie outside the macro call are those of a date and of a duration. -/
theorem isRecoverable_eq_false_iff {e : QueryError} :
    e.isRecoverable = false ↔ ∃ s, e = .invalidDate s ∨ e = .invalidDuration s := by
  cases e <;> simp [isRecoverable]

/-- A malformed call is an error of the call. -/
theorem IsMalformed.isOfCall {e : QueryError} (h : e.IsMalformed) : e.IsOfCall := by
  obtain ⟨cause, rfl⟩ := h
  rfl

end QueryError

/-! ## Macro calls -/

namespace Macro

open QueryError

/-- An argument is refused as malformed. -/
theorem readArgument_failsWith (input piece : Text) :
    FailsWith IsMalformed (readArgument input piece) := by
  unfold readArgument
  split
  · exact failsWith_error ⟨_, rfl⟩
  · exact failsWith_ok _

/-- The split into arguments fails with a malformed call only, wherever it stands. -/
theorem readArgumentsFrom_failsWith (input : Text) :
    ∀ (s : Text) (position : Nat) (n : Nesting) (piece : Text),
      FailsWith IsMalformed (readArgumentsFrom input position n piece s)
  | [], position, n, piece => by
    unfold readArgumentsFrom
    split
    · exact failsWith_error ⟨_, rfl⟩
    · split
      · exact failsWith_error ⟨_, rfl⟩
      · exact (readArgument_failsWith input piece.reverse).bind fun a => failsWith_ok [a]
  | c :: r, position, n, piece => by
    have ih := readArgumentsFrom_failsWith input r
    unfold readArgumentsFrom
    split
    · refine (readArgument_failsWith input piece.reverse).bind fun a => ?_
      exact (ih _ n []).bind fun args => failsWith_ok (a :: args)
    · split
      · exact failsWith_error ⟨_, rfl⟩
      · exact ih _ _ _

/-- Arguments are refused as malformed. -/
theorem readArguments_failsWith (input : Text) :
    FailsWith IsMalformed (readArguments input) := by
  unfold readArguments
  split
  · exact failsWith_ok []
  · exact readArgumentsFrom_failsWith input input 0 .top []

/-- A source is refused with an error of the call. -/
theorem readSource_failsWith (query rest : Text) : FailsWith IsOfCall (readSource query rest) := by
  unfold readSource
  split
  · exact failsWith_ok _
  · exact failsWith_error rfl

/-- A call of any kind is refused with an error of the call. -/
theorem readCallOf_failsWith (query : Text) (kind : Kind) (args : List Text) (rest : Text) :
    FailsWith IsOfCall (readCallOf query kind args rest) := by
  have hsource := readSource_failsWith query rest
  unfold readCallOf
  split
  · exact hsource.bind fun _ => failsWith_ok _
  · exact hsource.bind fun _ => failsWith_ok _
  · exact failsWith_error rfl
  · exact failsWith_error rfl
  · exact failsWith_error rfl
  · exact hsource.bind fun _ => failsWith_ok _
  · split
    · split
      · exact failsWith_error rfl
      · exact failsWith_ok _
    · exact failsWith_error rfl

/-- Every error of reading a macro call lies in the call. -/
theorem readCall_failsWith (query : Text) : FailsWith IsOfCall (readCall query) := by
  unfold readCall
  dsimp only
  split
  · exact failsWith_ok none
  · split
    · exact failsWith_error rfl
    · next inner rest _ =>
      refine ((readArguments_failsWith inner).mono fun _ =>
        IsMalformed.isOfCall).bind fun args => ?_
      exact (readCallOf_failsWith _ _ args rest).bind fun call => failsWith_ok (some call)

/-- An alias is missed with an error of the call. -/
theorem aliasOf_failsWith (argument : Text) : FailsWith IsOfCall (aliasOf argument) := by
  unfold aliasOf
  dsimp only
  split
  · exact failsWith_error rfl
  · exact failsWith_ok _

/-- Columns fail to expand with an error of the call. -/
theorem columns_failsWith (key value source : Text) :
    FailsWith IsOfCall (columns key value source) := by
  unfold columns
  refine (aliasOf_failsWith key).bind fun keyAlias => ?_
  exact (aliasOf_failsWith value).bind fun valueAlias => failsWith_ok _

/-- Every error of expanding a macro call lies in the call. -/
theorem expand_failsWith (resolveName : Text → Text) :
    ∀ call : Call, FailsWith IsOfCall (call.expand resolveName)
  | .columns key value source => columns_failsWith key value source
  | .rateColumns key value source =>
    (columns_failsWith key value source).bind fun _ => failsWith_ok _
  | .rate args source => by
    rw [Call.expand, rate]
    split
    · exact failsWith_error rfl
    · exact (FailsWith.mapM aliasOf_failsWith args).bind fun _ => failsWith_ok _
  | .event name aggregation => failsWith_ok _

end Macro

/-! ## Time values -/

/-- The error lies outside the macro call. -/
def QueryError.IsOfTime (e : QueryError) : Prop := e.isRecoverable = false

/-- The failure is no error of a macro call. -/
def Failure.IsOfTime : Failure → Prop
  | .error e => e.IsOfTime
  | .abort => True

/-- An error outside the call is a failure outside the call. -/
theorem FailsWith.failure {α : Type} {x : Except QueryError α}
    (h : FailsWith QueryError.IsOfTime x) :
    FailsWith Failure.IsOfTime (x.mapError Failure.error) := by
  cases x with
  | error e => exact failsWith_error (h e rfl)
  | ok a => exact failsWith_ok a

theorem find_failsWith (s : Text) : FailsWith QueryError.IsOfTime (Duration.find s) := by
  unfold Duration.find
  split
  · exact failsWith_error rfl
  · split
    · exact failsWith_error rfl
    · split
      · exact failsWith_ok _
      · exact failsWith_error rfl

theorem bucketSeconds_failsWith (s : Text) (factor : UInt32) :
    FailsWith QueryError.IsOfTime (bucketSeconds s factor) := by
  unfold bucketSeconds
  refine (find_failsWith s).bind fun d => ?_
  dsimp only
  split
  · exact failsWith_ok _
  · exact failsWith_error rfl

/-- A date expression fails outside the call. -/
theorem resolveDate_failsWith (now : Instant) (roundUp : Bool) (text : Text) :
    FailsWith Failure.IsOfTime (resolveDate now roundUp text) := by
  unfold resolveDate
  split
  · exact failsWith_error rfl
  · split
    · exact failsWith_ok _
    · exact failsWith_error rfl
    · exact failsWith_error trivial

namespace Bound

theorem roundingMillis_failsWith (rounding : Text) :
    FailsWith QueryError.IsOfTime (roundingMillis rounding) := by
  unfold roundingMillis
  refine (bucketSeconds_failsWith rounding 1).bind fun seconds => ?_
  dsimp only
  split
  · exact failsWith_ok _
  · exact failsWith_error rfl

theorem resolve_failsWith (now : Instant) : ∀ b : Bound, FailsWith Failure.IsOfTime (b.resolve now)
  | .instant d => failsWith_ok d
  | .expression text => resolveDate_failsWith now true text

theorem seconds_failsWith (now : Instant) (b : Bound) :
    FailsWith Failure.IsOfTime (b.seconds now) :=
  (resolve_failsWith now b).bind fun d => failsWith_ok d.ceilSeconds

theorem round_failsWith (now : Instant) (rounding : Option Text) (b : Bound) :
    FailsWith Failure.IsOfTime (b.round now rounding) := by
  unfold round
  split
  · exact failsWith_ok b
  · next rounding =>
    split
    · exact failsWith_ok b
    · refine (resolve_failsWith now b).bind fun d => ?_
      refine (roundingMillis_failsWith rounding).failure.bind fun unit => ?_
      dsimp only
      split
      · exact failsWith_ok _
      · exact failsWith_error rfl

end Bound

/-- No failure of a range's time values is an error of a macro call. -/
theorem TimeRange.resolve_failsWith (now : Instant) (range : TimeRange) (rounding : Option Text)
    (interval : Text) (factor : UInt32) :
    FailsWith Failure.IsOfTime (range.resolve now rounding interval factor) := by
  unfold TimeRange.resolve
  refine (range.lower.round_failsWith now rounding).bind fun lower => ?_
  refine (lower.seconds_failsWith now).bind fun lowerSeconds => ?_
  refine (range.upper.seconds_failsWith now).bind fun upperSeconds => ?_
  exact (bucketSeconds_failsWith interval factor).failure.bind fun _ => failsWith_ok _

end SeriesQuery
