import SeriesQuery.Proofs.Macro.Call

/-!
# The parenthesis that ends a call

A call goes on to the first place where its body can be cut in a closed text, a closing parenthesis
and anything else (`CutsAtClose`); there is one such place at most, and `splitCall?` finds it
(`splitCall?_eq_some_iff`). That scan starts inside a parenthesis, and the one of the arguments
outside. They agree from character to character: the first is one level deeper, until the second
would meet an unmatched parenthesis (`advance_deeper_eq_some_iff`).

Up to the end of the call nothing unmatched can be met, so a scan that passes over unmatched
parentheses finds the same end (`cutAtTop?_eq`). The arguments of a call that was cut are refused
only for a blank piece among them (`readArguments_error_of_closed`).
-/

namespace SeriesQuery

open Text

namespace Nesting

/-- The state after one more character, where an unmatched parenthesis changes nothing. -/
def step (n : Nesting) (c : Char) : Nesting := (n.advance c).getD n

/-- The state behind the parenthesis that opens a call. -/
def opened : Nesting := top.deeper

variable {n m : Nesting} {c : Char}

theorem deeper_ne_top (n : Nesting) : n.deeper ≠ top := nofun

/-- Only at the outermost level can a scan stop. -/
theorem exists_advance (h : n ≠ top) (c : Char) : ∃ m, n.advance c = some m :=
  Option.ne_none_iff_exists'.1 fun hnone => h (advance_eq_none_iff.1 hnone).1

/-- One level deeper a scan does the same, and where it would stop it closes the parenthesis
around it. -/
theorem advance_deeper_eq_some_iff : n.deeper.advance c = some m ↔
    (∃ k, n.advance c = some k ∧ m = k.deeper) ∨ (n = top ∧ c = ')' ∧ m = top) := by
  cases hk : n.advance c with
  | some k =>
    have hne : ¬ (n = top ∧ c = ')') := by
      rw [← advance_eq_none_iff, hk]
      exact Option.some_ne_none k
    rw [advance_deeper hk, Option.some.injEq]
    refine ⟨fun h => .inl ⟨k, rfl, h.symm⟩, ?_⟩
    rintro (⟨_, ⟨⟩, rfl⟩ | ⟨rfl, rfl, -⟩)
    · rfl
    · exact absurd ⟨rfl, rfl⟩ hne
  | none =>
    obtain ⟨rfl, rfl⟩ := advance_eq_none_iff.1 hk
    have hclose : top.deeper.advance ')' = some top := rfl
    rw [hclose, Option.some.injEq]
    refine ⟨fun h => .inr ⟨rfl, rfl, h.symm⟩, ?_⟩
    rintro (⟨_, ⟨⟩, -⟩ | ⟨-, -, rfl⟩)
    rfl

end Nesting

namespace Macro

open Nesting

/-! ## The end of a call -/

/-- The body of a call can be cut at a closing parenthesis behind a closed text. -/
structure CutsAtClose (body inner rest : Text) : Prop where
  eq_append : body = inner ++ ')' :: rest
  closed : Closed inner

/-- What is cut off from inside a parenthesis is closed from outside, up to the parenthesis. -/
theorem eq_append_of_splitCallFrom? : ∀ {body inner rest : Text} {n : Nesting},
    splitCallFrom? n.deeper body = some (inner, rest) →
      body = inner ++ ')' :: rest ∧ n.scan inner = some top
  | [], _, _, _, h => nomatch h
  | c :: body, inner, rest, n, h => by
    obtain ⟨m, hm⟩ := exists_advance (deeper_ne_top n) c
    rw [splitCallFrom?, hm] at h
    dsimp only at h
    rcases advance_deeper_eq_some_iff.1 hm with ⟨k, hk, rfl⟩ | ⟨rfl, rfl, rfl⟩
    · rw [if_neg (deeper_ne_top k)] at h
      obtain ⟨⟨inner', rest'⟩, hcut, he⟩ := Option.map_eq_some_iff.1 h
      cases he
      obtain ⟨rfl, hscan⟩ := eq_append_of_splitCallFrom? hcut
      exact ⟨rfl, by rw [scan_cons, hk, Option.bind_some, hscan]⟩
    · rw [if_pos rfl] at h
      cases h
      exact ⟨rfl, rfl⟩

/-- The end of a call is the place where its body can be cut. -/
theorem splitCall?_eq_some_iff {body inner rest : Text} :
    splitCall? body = some (inner, rest) ↔ CutsAtClose body inner rest := by
  constructor
  · intro h
    obtain ⟨he, hscan⟩ := eq_append_of_splitCallFrom? (n := top) h
    exact ⟨he, hscan⟩
  · rintro ⟨rfl, hclosed⟩
    exact splitCall?_append hclosed rest

/-- A call goes on without end exactly if its body cannot be cut. -/
theorem splitCall?_eq_none_iff {body : Text} :
    splitCall? body = none ↔ ¬ ∃ inner rest, CutsAtClose body inner rest := by
  rw [Option.eq_none_iff_forall_ne_some]
  constructor
  · rintro h ⟨inner, rest, hcut⟩
    exact h (inner, rest) (splitCall?_eq_some_iff.2 hcut)
  · rintro h ⟨inner, rest⟩ hsplit
    exact h ⟨inner, rest, splitCall?_eq_some_iff.1 hsplit⟩

/-- A body can be cut at one place only. -/
theorem CutsAtClose.unique {body inner rest inner' rest' : Text} (h : CutsAtClose body inner rest)
    (h' : CutsAtClose body inner' rest') : inner = inner' ∧ rest = rest' := by
  have hsplit := splitCall?_eq_some_iff.2 h
  rw [splitCall?_eq_some_iff.2 h', Option.some.injEq, Prod.mk.injEq] at hsplit
  exact ⟨hsplit.1.symm, hsplit.2.symm⟩

/-! ## Passing over unmatched parentheses -/

/-- The text up to the character behind which nothing is open, and the text behind that character,
for a scan that passes over unmatched parentheses. -/
def cutAtTop? : Nesting → Text → Option (Text × Text)
  | _, [] => none
  | n, c :: r =>
    if n.step c = top then some ([], r)
    else (cutAtTop? (n.step c) r).map fun (inner, rest) => (c :: inner, rest)

/-- A scan that has not found the end of a call is inside something. -/
theorem foldl_step_ne_top : ∀ {s : Text} {n : Nesting}, n ≠ top → cutAtTop? n s = none →
    s.foldl step n ≠ top
  | [], _, hn, _ => hn
  | c :: s, n, _, h => by
    rw [cutAtTop?] at h
    split at h
    · cases h
    · next hstep =>
      rw [List.foldl_cons]
      exact foldl_step_ne_top hstep (Option.map_eq_none_iff.1 h)

/-- Inside something there is nothing unmatched to pass over. -/
theorem cutAtTop?_eq : ∀ {s : Text} {n : Nesting}, n ≠ top → cutAtTop? n s = splitCallFrom? n s
  | [], _, _ => rfl
  | c :: s, n, hn => by
    obtain ⟨m, hm⟩ := exists_advance hn c
    have hstep : n.step c = m := by rw [step, hm, Option.getD_some]
    rw [cutAtTop?, splitCallFrom?, hstep, hm]
    dsimp only
    split
    · rfl
    · next hne => rw [cutAtTop?_eq hne]

/-! ## The arguments of a call that was cut -/

/-- The text is these closed pieces, which may be blank, with commas between them and none at the
outermost level of a piece. -/
structure Parts (input : Text) (pieces : List Text) : Prop where
  ne_nil : pieces ≠ []
  closed : ∀ p ∈ pieces, Closed p
  noTopComma : ∀ p ∈ pieces, NoTopComma p
  join_eq : join [','] pieces = input

/-- A closed part and a comma in front of parts are one part more. -/
theorem Parts.cons {rest p : Text} {pieces : List Text} (h : Parts rest pieces) (hp : Closed p)
    (hcomma : NoTopComma p) : Parts (p ++ ',' :: rest) (p :: pieces) where
  ne_nil := List.cons_ne_nil p pieces
  closed := by
    rintro q (_ | ⟨_, hq⟩)
    · exact hp
    · exact h.closed q hq
  noTopComma := by
    rintro q (_ | ⟨_, hq⟩)
    · exact hcomma
    · exact h.noTopComma q hq
  join_eq := by rw [join_cons_of_ne_nil _ _ h.ne_nil, h.join_eq]

/-- A text that brings a scan to the outermost level has parts, of which the first has begun. -/
theorem exists_parts_of_scan : ∀ {s piece : Text} {n : Nesting}, n.scan s = some top →
    top.scan piece = some n → NoTopComma piece → ∃ pieces, Parts (piece ++ s) pieces
  | [], piece, n, hs, hpiece, hcomma => by
    cases hs
    refine ⟨[piece], List.cons_ne_nil piece [], ?_, ?_, ?_⟩
    · rintro _ (_ | ⟨_, ⟨⟩⟩)
      exact hpiece
    · rintro _ (_ | ⟨_, ⟨⟩⟩)
      exact hcomma
    · rw [join_singleton, List.append_nil]
  | c :: s, piece, n, hs, hpiece, hcomma => by
    obtain ⟨m, hm, hs⟩ := Option.bind_eq_some_iff.1 hs
    by_cases hc : n = top ∧ c = ','
    · obtain ⟨rfl, rfl⟩ := hc
      obtain rfl : top = m := Option.some.inj hm
      obtain ⟨pieces, hpieces⟩ := exists_parts_of_scan hs (scan_nil top) noTopComma_nil
      exact ⟨piece :: pieces, hpieces.cons hpiece hcomma⟩
    · have hcomma' : NoTopComma (piece ++ [c]) := hcomma.concat fun ⟨hscan, he⟩ =>
        hc ⟨Option.some.inj (hpiece.symm.trans hscan), he⟩
      obtain ⟨pieces, hpieces⟩ := exists_parts_of_scan hs (scan_concat hpiece hm) hcomma'
      rw [List.append_assoc, List.singleton_append] at hpieces
      exact ⟨pieces, hpieces⟩

/-- Of a closed text, parts without a blank one are its arguments. -/
theorem Parts.splits {input : Text} {pieces : List Text} (h : Parts input pieces)
    (hblank : ∀ p ∈ pieces, ¬ isAllBlank p) : Splits input pieces where
  ne_nil := h.ne_nil
  isPiece p hp := ⟨h.closed p hp, hblank p hp, h.noTopComma p hp⟩
  join_eq := h.join_eq

/-- The error says that an argument is empty. -/
def IsEmptyArgument (input : Text) (e : QueryError) : Prop := e = .malformed (.emptyArgument input)

/-- A single argument is refused only when it is empty. -/
theorem readArgument_failsWith_empty (input piece : Text) :
    FailsWith (IsEmptyArgument input) (readArgument input piece) := by
  unfold readArgument
  split
  · exact failsWith_error rfl
  · exact failsWith_ok _

/-- In a text that brings the scan to the outermost level, only an empty argument is refused. -/
theorem readArgumentsFrom_failsWith_empty (input : Text) :
    ∀ {s : Text} {n : Nesting} (position : Nat) (piece : Text), n.scan s = some top →
      FailsWith (IsEmptyArgument input) (readArgumentsFrom input position n piece s)
  | [], n, position, piece, h => by
    cases h
    unfold readArgumentsFrom
    exact (readArgument_failsWith_empty input piece.reverse).bind fun a => failsWith_ok [a]
  | c :: r, n, position, piece, h => by
    obtain ⟨m, hm, hr⟩ := Option.bind_eq_some_iff.1 h
    unfold readArgumentsFrom
    split
    · next hc =>
      obtain ⟨rfl, rfl⟩ := hc
      obtain rfl : top = m := Option.some.inj hm
      have ih := readArgumentsFrom_failsWith_empty input (position + (',').utf8Size) [] hr
      refine (readArgument_failsWith_empty input piece.reverse).bind fun a => ?_
      exact ih.bind fun args => failsWith_ok (a :: args)
    · rw [hm]
      exact readArgumentsFrom_failsWith_empty input _ _ hr

/-- A closed text is refused only for a blank part. -/
theorem readArguments_error_of_closed {input : Text} {e : QueryError} (h : Closed input)
    (he : readArguments input = .error e) :
    IsEmptyArgument input e ∧ ∃ pieces, Parts input pieces ∧ ∃ p ∈ pieces, isAllBlank p := by
  constructor
  · rw [readArguments] at he
    split at he
    · cases he
    · exact readArgumentsFrom_failsWith_empty input 0 [] h e he
  · obtain ⟨pieces, hpieces⟩ := exists_parts_of_scan h (scan_nil top) noTopComma_nil
    refine ⟨pieces, hpieces, ?_⟩
    by_contra hnone
    have hsplits := hpieces.splits fun p hp hblank => hnone ⟨p, hp, hblank⟩
    rw [List.nil_append] at hsplits
    rw [hsplits.readArguments_eq] at he
    cases he

/-- The body of a call is cut exactly where a closing parenthesis stands behind a closed text, which
is at one place at most, and not at all where there is none. The scan for that place does not have
to look for unmatched parentheses, as it meets none before it ends; and what it cuts off has
arguments unless one of them is empty. -/
theorem splitCall?_agrees (body : Text) :
    (∀ inner rest, splitCall? body = some (inner, rest) ↔ CutsAtClose body inner rest) ∧
    (∀ inner rest inner' rest', CutsAtClose body inner rest → CutsAtClose body inner' rest' →
      inner = inner' ∧ rest = rest') ∧
    (splitCall? body = none ↔ ¬ ∃ inner rest, CutsAtClose body inner rest) ∧
    cutAtTop? opened body = splitCall? body ∧
    (∀ before c after, body = before ++ c :: after → cutAtTop? opened before = none →
      (before.foldl step opened).advance c ≠ none) ∧
    ∀ inner rest e, splitCall? body = some (inner, rest) → readArguments inner = .error e →
      e = .malformed (.emptyArgument inner) ∧
        ∃ pieces, Parts inner pieces ∧ ∃ p ∈ pieces, isAllBlank p := by
  have hopened : opened ≠ top := deeper_ne_top top
  refine ⟨fun inner rest => splitCall?_eq_some_iff,
    fun inner rest inner' rest' h h' => h.unique h', splitCall?_eq_none_iff, cutAtTop?_eq hopened,
    fun before c after _ hbefore hnone => ?_, fun inner rest e hsplit he => ?_⟩
  · exact foldl_step_ne_top hopened hbefore (advance_eq_none_iff.1 hnone).1
  · exact readArguments_error_of_closed (splitCall?_eq_some_iff.1 hsplit).closed he

/-- The inside of a call with parentheses in literals, and nothing between two of its commas. -/
def emptySecond : Text := "if(a, ')', 'it\\'s') k, , c".toList

/-- A call is cut behind its literals and parentheses, and its arguments are refused for the empty
one. -/
theorem splitCall?_agrees_emptySecond :
    CutsAtClose (emptySecond ++ ") FROM (t)".toList) emptySecond " FROM (t)".toList ∧
    splitCall? (emptySecond ++ ") FROM (t)".toList) = some (emptySecond, " FROM (t)".toList) ∧
    ¬ CutsAtClose (emptySecond ++ ") FROM (t)".toList) "if(a, '".toList
      "', 'it\\'s') k, , c) FROM (t)".toList ∧
    cutAtTop? opened (emptySecond ++ ") FROM (t)".toList) =
      some (emptySecond, " FROM (t)".toList) ∧
    cutAtTop? opened emptySecond = none ∧ (emptySecond.foldl step opened).advance ')' ≠ none ∧
    readArguments emptySecond = .error (.malformed (.emptyArgument emptySecond)) ∧
    ∃ pieces, Parts emptySecond pieces ∧ ∃ p ∈ pieces, isAllBlank p := by
  have hcut : CutsAtClose (emptySecond ++ ") FROM (t)".toList) emptySecond " FROM (t)".toList :=
    ⟨rfl, by decide⟩
  have hrest : " FROM (t)".toList ≠ "', 'it\\'s') k, , c) FROM (t)".toList := by decide
  have hpending : cutAtTop? opened emptySecond = none := by decide
  have herror : readArguments emptySecond = .error (.malformed (.emptyArgument emptySecond)) := by
    decide +kernel
  obtain ⟨hsome, hunique, -, hignoring, hmatched, hempty⟩ :=
    splitCall?_agrees (emptySecond ++ ") FROM (t)".toList)
  have hsplit := (hsome _ _).2 hcut
  exact ⟨hcut, hsplit, fun h => hrest (hunique _ _ _ _ hcut h).2, hignoring.trans hsplit, hpending,
    hmatched _ _ " FROM (t)".toList rfl hpending, herror, (hempty _ _ _ hsplit herror).2⟩

end Macro

end SeriesQuery
