import SeriesQuery.Macro.Call
import SeriesQuery.Proofs.Macro.Arguments
import SeriesQuery.Proofs.Text.Keyword

/-!
# Reading a call back

A call that was read has arguments that are trimmed pieces and a source that starts with the keyword
FROM and ends in no blank (`readable_of_readCall`). That is all that matters: such a call is read
from any way to write it (`Call.Readable.readCall_eq`), its printed form among them
(`readCall_print`). In between stand the three ways in which a query is cut, each with what it
finds: the head (`readHead?_append`), the closing parenthesis (`splitCall?_append`) and the first
FROM behind it (`readSource_append`). `readCall_append` is the reader on any query in which the
parenthesis is where it should be.
-/

namespace SeriesQuery

open Text

/-! ## Blanks around pieces -/

/-- Blanks are inert, and neither commas nor backslashes. -/
theorem isInert_of_isBlank {c : Char} (h : isBlank c) : IsInert c ∧ c ≠ ',' ∧ c ≠ '\\' := by
  refine ⟨⟨?_, ?_, ?_⟩, ?_, ?_⟩
  all_goals
    rintro rfl
    exact absurd h (by decide)

namespace Nesting

/-- Blanks outside literals leave a scan where it is. -/
theorem scan_blanks {n : Nesting} (hn : n.mode = .outside) {b : Text} (hb : isAllBlank b) :
    n.scan b = some n :=
  scan_of_inert hn fun c hc => (isInert_of_isBlank (isAllBlank_iff.1 hb c hc)).1

/-- A scan from the outermost level passes over blanks. -/
theorem scan_blanks_append {b : Text} (hb : isAllBlank b) (s : Text) :
    top.scan (b ++ s) = top.scan s := by
  rw [scan_append, scan_blanks rfl hb, Option.bind_some]

/-- Blanks take no scan out of a literal. -/
theorem eq_of_scan_blanks : ∀ {b : Text} {n m : Nesting}, isAllBlank b → n.scan b = some m →
    m.mode = .outside → n = m
  | [], n, m, _, h, _ => Option.some.inj h
  | c :: b, n, m, hb, h, hm => by
    rw [isAllBlank_iff] at hb
    rw [scan_cons] at h
    obtain ⟨k, hk, h⟩ := Option.bind_eq_some_iff.1 h
    obtain rfl := eq_of_scan_blanks (isAllBlank_iff.2 fun d hd => hb d (List.mem_cons_of_mem c hd))
      h hm
    obtain ⟨hinert, -, hslash⟩ := isInert_of_isBlank (hb c (List.mem_cons_self ..))
    obtain ⟨depth, mode⟩ := n
    cases mode with
    | outside => exact Option.some.inj ((advance_of_inert rfl hinert).symm.trans hk)
    | inside =>
      simp only [advance, hslash, hinert.1, if_false, Option.some.injEq] at hk
      rw [← hk] at hm
      cases hm
    | escaped =>
      cases hk
      cases hm

/-- The state of a scan with one parenthesis more around it. -/
def deeper (n : Nesting) : Nesting := { n with depth := n.depth + 1 }

/-- A parenthesis around a text does not matter to a scan that finds no unmatched one. -/
theorem advance_deeper {n m : Nesting} {c : Char} (h : n.advance c = some m) :
    n.deeper.advance c = some m.deeper := by
  obtain ⟨depth, mode⟩ := n
  cases mode with
  | escaped =>
    cases h
    rfl
  | inside | outside =>
    simp only [advance, deeper] at h ⊢
    grind

end Nesting

namespace Macro

open Nesting

/-- A text without commas behind another adds none at the outermost level. -/
theorem NoTopComma.append : ∀ {u s : Text}, NoTopComma s → (∀ c ∈ u, c ≠ ',') → NoTopComma (s ++ u)
  | [], s, hs, _ => by rwa [List.append_nil]
  | c :: u, s, hs, hu => by
    have hc := hs.concat (c := c) fun h => hu c (List.mem_cons_self ..) h.2
    have := hc.append fun d hd => hu d (List.mem_cons_of_mem c hd)
    rwa [List.append_assoc, List.singleton_append] at this

/-- Blanks in front of a text put no comma at the outermost level. -/
theorem NoTopComma.prepend : ∀ {b s : Text}, NoTopComma s → isAllBlank b → NoTopComma (b ++ s)
  | b, s, hs, hb => by
    intro before after h hscan
    rcases List.append_eq_append_iff.1 h with ⟨q, rfl, hq⟩ | ⟨q, rfl, hq⟩
    · rw [scan_blanks_append hb] at hscan
      exact hs q after hq hscan
    · cases q with
      | nil => exact hs [] after hq.symm rfl
      | cons c q =>
        obtain ⟨rfl, -⟩ := List.cons.inj hq
        have hcomma : ',' ∈ before ++ ',' :: q := List.mem_append_right _ (List.mem_cons_self ..)
        exact (isInert_of_isBlank (isAllBlank_iff.1 hb _ hcomma)).2.1 rfl

/-- A piece with blanks around is a piece. -/
theorem IsPiece.pad {p b b' : Text} (hp : IsPiece p) (hb : isAllBlank b) (hb' : isAllBlank b') :
    IsPiece (b ++ p ++ b') where
  closed := by
    rw [Closed, List.append_assoc, scan_blanks_append hb, scan_append, hp.closed,
      Option.bind_some, scan_blanks rfl hb']
  notBlank h := by
    rw [← trim_eq_nil_iff, trim_blanks_append hb hb', trim_eq_nil_iff] at h
    exact hp.notBlank h
  noTopComma := (hp.noTopComma.prepend hb).append fun c hc =>
    (isInert_of_isBlank (isAllBlank_iff.1 hb' c hc)).2.1

/-- A trimmed piece is a piece. -/
theorem IsPiece.trim {p : Text} (hp : IsPiece p) : IsPiece (trim p) := by
  obtain ⟨b, b', hb, hb', he⟩ := exists_blanks_trim p
  refine ⟨?_, fun h => ?_, fun before after h hscan => ?_⟩
  · have hclosed := hp.closed
    rw [he, Closed, List.append_assoc, scan_blanks_append hb, scan_append] at hclosed
    obtain ⟨m, hm, hback⟩ := Option.bind_eq_some_iff.1 hclosed
    rw [Closed, hm, eq_of_scan_blanks hb' hback rfl]
  · rw [← trim_eq_nil_iff, hasBareEnds_iff.1 (hasBareEnds_trim p), trim_eq_nil_iff] at h
    exact hp.notBlank h
  · refine hp.noTopComma (b ++ before) (after ++ b') ?_ ?_
    · rw [he, h]
      simp only [List.append_assoc, List.cons_append]
    · rw [scan_blanks_append hb, hscan]

/-! ## Arguments -/

/-- What the reader gives as an argument: a trimmed piece. -/
structure IsArgument (a : Text) : Prop where
  isPiece : IsPiece a
  trim_eq : Text.trim a = a

theorem IsArgument.ne_nil {a : Text} (h : IsArgument a) : a ≠ [] := by
  rintro rfl
  exact h.isPiece.notBlank isAllBlank_nil

/-- The reader gives nothing else. -/
theorem isArgument_of_readArguments {input : Text} {args : List Text}
    (h : readArguments input = .ok args) : ∀ a ∈ args, IsArgument a := by
  by_cases hb : isAllBlank input
  · rw [readArguments_of_isAllBlank hb] at h
    cases h
    exact nofun
  · obtain ⟨pieces, hpieces, rfl⟩ := splits_of_readArguments hb h
    intro a ha
    obtain ⟨p, hp, rfl⟩ := List.mem_map.1 ha
    exact ⟨(hpieces.isPiece p hp).trim, hasBareEnds_iff.1 (hasBareEnds_trim p)⟩

/-- Arguments are the texts that are read as themselves alone. -/
theorem isArgument_iff {a : Text} : IsArgument a ↔ readArguments a = .ok [a] := by
  constructor
  · intro h
    rw [(splits_singleton_iff.2 ⟨h.isPiece, rfl⟩).readArguments_eq, List.map_singleton, h.trim_eq]
  · intro h
    exact isArgument_of_readArguments h a (List.mem_singleton_self a)

instance (a : Text) : Decidable (IsArgument a) := decidable_of_iff _ isArgument_iff.symm

/-- A text that splits into pieces is closed. -/
theorem Splits.closed {input : Text} {pieces : List Text} (h : Splits input pieces) :
    Closed input := by
  rw [← h.join_eq]
  exact scan_join rfl fun p hp => (h.isPiece p hp).closed

/-- Blanks in front of a text belong to its first piece. -/
theorem Splits.prepend {input b : Text} {pieces : List Text} (h : Splits input pieces)
    (hb : isAllBlank b) :
    ∃ pieces', Splits (b ++ input) pieces' ∧ pieces'.map Text.trim = pieces.map Text.trim := by
  obtain ⟨p, pieces, rfl⟩ := List.exists_cons_of_ne_nil h.ne_nil
  have hpad : IsPiece (b ++ p) := by
    have := (h.isPiece p (List.mem_cons_self ..)).pad hb isAllBlank_nil
    rwa [List.append_nil] at this
  have htrim : Text.trim (b ++ p) = Text.trim p := by
    have := trim_blanks_append hb isAllBlank_nil p
    rwa [List.append_nil] at this
  refine ⟨(b ++ p) :: pieces, ⟨List.cons_ne_nil _ _, ?_, ?_⟩, by simp only [List.map_cons, htrim]⟩
  · rintro q (_ | ⟨_, hq⟩)
    · exact hpad
    · exact h.isPiece q (List.mem_cons_of_mem p hq)
  · rw [← h.join_eq]
    cases pieces with
    | nil => rw [join_singleton, join_singleton]
    | cons q pieces =>
      rw [join_cons_of_ne_nil _ _ (List.cons_ne_nil q pieces),
        join_cons_of_ne_nil _ _ (List.cons_ne_nil q pieces), List.append_assoc]

/-- Arguments that a comma and a space separate are pieces that a comma separates. -/
theorem splits_join {args : List Text} (hne : args ≠ []) (h : ∀ a ∈ args, IsArgument a) :
    ∃ pieces, Splits (join ", ".toList args) pieces ∧ pieces.map Text.trim = args := by
  induction args with
  | nil => exact absurd rfl hne
  | cons a args ih =>
    have ha := h a (List.mem_cons_self ..)
    cases args with
    | nil =>
      refine ⟨[a], ?_, by rw [List.map_singleton, ha.trim_eq]⟩
      rw [join_singleton]
      exact splits_singleton_iff.2 ⟨ha.isPiece, rfl⟩
    | cons b args =>
      obtain ⟨pieces, hpieces, hmap⟩ :=
        ih (List.cons_ne_nil b args) fun c hc => h c (List.mem_cons_of_mem a hc)
      obtain ⟨pieces', hpieces', hmap'⟩ := hpieces.prepend (b := [' ']) (by decide)
      refine ⟨a :: pieces', ?_, by rw [List.map_cons, ha.trim_eq, hmap', hmap]⟩
      rw [join, List.intercalate_cons_of_ne_nil (List.cons_ne_nil b args), List.append_assoc]
      exact hpieces'.cons ha.isPiece

/-! ## Head, parenthesis and source -/

/-- A query that starts with the head of a macro has that head. -/
theorem readHead?_append (kind : Kind) (body : Text) :
    readHead? (kind.head ++ body) = some (kind, body) := by
  cases kind <;> rfl

/-- The head and the text behind it are the query. -/
theorem eq_of_readHead? {query body : Text} {kind : Kind}
    (h : readHead? query = some (kind, body)) : query = kind.head ++ body := by
  obtain ⟨k, -, hk⟩ := List.exists_of_findSome?_eq_some h
  obtain ⟨r, hr, he⟩ := Option.map_eq_some_iff.1 hk
  cases he
  exact after?_eq_some_iff.1 hr

/-- From inside a parenthesis, the rest of a text that is closed but for it ends the call. -/
theorem splitCallFrom?_append (rest : Text) : ∀ {inner : Text} {n : Nesting},
    n.scan inner = some top → splitCallFrom? n.deeper (inner ++ ')' :: rest) = some (inner, rest)
  | [], n, h => by
    cases h
    rfl
  | c :: inner, n, h => by
    rw [scan_cons] at h
    obtain ⟨m, hm, h⟩ := Option.bind_eq_some_iff.1 h
    have hne : m.deeper ≠ top := nofun
    rw [List.cons_append, splitCallFrom?, advance_deeper hm]
    dsimp only
    rw [if_neg hne, splitCallFrom?_append rest h]
    rfl

/-- A call with a closed inside ends at the parenthesis behind it. -/
theorem splitCall?_append {inner : Text} (h : Closed inner) (rest : Text) :
    splitCall? (inner ++ ')' :: rest) = some (inner, rest) :=
  splitCallFrom?_append rest h

/-- What stands behind a call is the end of the text. -/
theorem suffix_of_splitCallFrom? : ∀ {body inner rest : Text} {n : Nesting},
    splitCallFrom? n body = some (inner, rest) → rest <:+ body
  | [], _, _, _, h => nomatch h
  | c :: body, inner, rest, n, h => by
    rw [splitCallFrom?] at h
    split at h
    · cases h
    · split at h
      · cases h
        exact List.suffix_cons c body
      · obtain ⟨⟨inner', rest'⟩, hr, he⟩ := Option.map_eq_some_iff.1 h
        cases he
        exact (suffix_of_splitCallFrom? hr).trans (List.suffix_cons c body)

/-- A text that a query can have behind its call: it starts with FROM and ends in no blank. -/
structure IsSource (source : Text) : Prop where
  spells : Keyword.fromClause.spells (leadingWord source)
  last : ∀ c ∈ source.getLast?, ¬ isBlank c

theorem IsSource.ne_nil {source : Text} (h : IsSource source) : source ≠ [] := by
  rintro rfl
  exact Keyword.not_spells_nil h.spells

/-- A source behind blanks is found where it starts. -/
theorem readSource_append {gap source : Text} (hgap : isAllBlank gap) (hs : IsSource source)
    (query : Text) : readSource query (gap ++ source) = .ok source := by
  have hword : ∀ c ∈ gap, ¬ isWordChar c := fun c hc =>
    not_isWordChar_of_isBlank (isAllBlank_iff.1 hgap c hc)
  rw [readSource, Keyword.split?, Keyword.splitFrom?_gap_append hword,
    Keyword.splitFrom?_of_spells hs.spells]
  exact congrArg Except.ok (leadingWord_append_afterWord source)

/-- What the reader finds as a source starts with FROM. -/
theorem spells_of_readSource {query rest source : Text} (h : readSource query rest = .ok source) :
    Keyword.fromClause.spells (leadingWord source) ∧ source <:+ rest := by
  rw [readSource] at h
  split at h
  · next o ho =>
    cases h
    obtain ⟨hstands, -⟩ := Keyword.standsBetween_of_splitFrom? ho
    refine ⟨?_, o.before, ?_⟩
    · rw [hstands.leadingWord_eq]
      exact hstands.spells
    · rw [← List.append_assoc]
      exact Keyword.splitFrom?_append ho
  · cases h

/-! ## The reader on a call in its place -/

/-- The head of a call has no blank at its ends. -/
theorem hasBareEnds_head (kind : Kind) : HasBareEnds kind.head := by
  cases kind <;> exact hasBareEnds_iff.2 (by decide)

theorem head_ne_nil (kind : Kind) : kind.head ≠ [] := by cases kind <;> exact nofun

/-- A query that starts with a head is read from what its closing parenthesis cuts apart; blanks at
its end make no difference. -/
theorem readCall_head (kind : Kind) (body : Text) :
    readCall (kind.head ++ body) =
      match splitCall? (trimEnd body) with
      | none => .error (.malformed (.unclosedCall kind (kind.head ++ trimEnd body)))
      | some (inner, rest) => do
        let args ← readArguments inner
        return some (← readCallOf (kind.head ++ trimEnd body) kind args rest) := by
  have htrim := (hasBareEnds_head kind).trim_append (head_ne_nil kind) body
  cases hcut : splitCall? (trimEnd body) with
  | none => simp only [readCall, htrim, readHead?_append, hcut]
  | some cut => simp only [readCall, htrim, readHead?_append, hcut]

/-- A query that starts with a head and has its closing parenthesis behind a closed text is read
from that text and what stands behind the parenthesis. -/
theorem readCall_append (kind : Kind) {inner rest : Text} (hclosed : Closed inner)
    (hlast : ∀ c ∈ (')' :: rest).getLast?, ¬ isBlank c) :
    readCall (kind.head ++ (inner ++ ')' :: rest)) = do
      let args ← readArguments inner
      return some (← readCallOf (kind.head ++ (inner ++ ')' :: rest)) kind args rest) := by
  have htrim : trimEnd (inner ++ ')' :: rest) = inner ++ ')' :: rest := by
    refine trimEnd_eq_self ?_
    rwa [List.getLast?_append_of_ne_nil _ (List.cons_ne_nil ')' rest)]
  rw [readCall_head, htrim, splitCall?_append hclosed]

/-! ## Calls that were read -/

namespace Call

def args : Call → List Text
  | columns key value _ | rateColumns key value _ => [key, value]
  | rate args _ => args
  | event name aggregation => name :: aggregation.toList

def source? : Call → Option Text
  | columns _ _ source | rateColumns _ _ source | rate _ source => some source
  | event _ _ => none

/-- What a call has behind its parenthesis: the gap and the source, if it has one. -/
def behind (call : Call) (gap : Text) : Text := call.source?.elim [] (gap ++ ·)

/-- A call is printed as its head, its arguments and what stands behind its parenthesis. -/
theorem print_eq (call : Call) :
    call.print = call.kind.head ++ (join ", ".toList call.args ++ ')' :: call.behind [' ']) := by
  cases call <;> simp [print, kind, args, behind, source?]

/-- A call that the reader can give. -/
structure Readable (call : Call) : Prop where
  args_ne_nil : call.args ≠ []
  isArgument : ∀ a ∈ call.args, IsArgument a
  isSource : ∀ s ∈ call.source?, IsSource s

variable {call : Call} {gap : Text}

/-- The text behind a call that can be given ends in no blank. -/
theorem Readable.last_behind (h : call.Readable) (gap : Text) :
    ∀ c ∈ (')' :: call.behind gap).getLast?, ¬ isBlank c := by
  unfold behind
  cases hs : call.source? with
  | none =>
    rw [Option.elim_none, List.getLast?_singleton]
    rintro _ ⟨⟩
    decide
  | some source =>
    have hsource := h.isSource source hs
    intro c hc
    refine hsource.last c ?_
    rwa [Option.elim_some, ← List.cons_append, List.getLast?_append_of_ne_nil _ hsource.ne_nil]
      at hc

/-- A call that can be given is the call of its kind with its arguments and its source. -/
theorem Readable.readCallOf_eq (h : call.Readable) (hgap : isAllBlank gap) (query : Text) :
    readCallOf query call.kind call.args (call.behind gap) = .ok call := by
  have hread {source : Text} (hs : source ∈ call.source?) :
      readSource query (gap ++ source) = .ok source :=
    readSource_append hgap (h.isSource source hs) query
  cases call with
  | columns key value source | rateColumns key value source =>
    simp only [readCallOf, kind, args, behind, source?, Option.elim_some, hread rfl]
    rfl
  | rate args source =>
    obtain ⟨a, args, rfl⟩ := List.exists_cons_of_ne_nil h.args_ne_nil
    simp only [readCallOf, kind, Call.args, behind, source?, Option.elim_some, hread rfl]
    rfl
  | event name aggregation =>
    cases aggregation <;> rfl

/-- A call that can be given is read from any way to write it: its arguments between commas with
blanks around them, its source behind blanks. -/
theorem Readable.readCall_eq (h : call.Readable) (hgap : isAllBlank gap) {inner : Text}
    {pieces : List Text} (hpieces : Splits inner pieces)
    (hargs : pieces.map Text.trim = call.args) :
    readCall (call.kind.head ++ (inner ++ ')' :: call.behind gap)) = .ok (some call) := by
  rw [readCall_append call.kind hpieces.closed (h.last_behind gap), hpieces.readArguments_eq, hargs]
  show (readCallOf _ call.kind call.args (call.behind gap) >>= fun c => pure (some c)) = _
  rw [h.readCallOf_eq hgap]
  rfl

end Call

/-- A call that the reader gives for its arguments takes some of them, and the source it finds. -/
theorem readCallOf_eq_ok {query rest : Text} {kind : Kind} {args : List Text} {call : Call}
    (h : readCallOf query kind args rest = .ok call) :
    call.args ≠ [] ∧ (∀ a ∈ call.args, a ∈ args) ∧
      ∀ s ∈ call.source?, readSource query rest = .ok s := by
  have hsource {make : Text → Call}
      (hm : (do return make (← readSource query rest)) = Except.ok call) :
      ∃ s, readSource query rest = .ok s ∧ call = make s := by
    obtain ⟨s, hs, hc⟩ := bind_eq_ok_iff.1 hm
    cases hc
    exact ⟨s, hs, rfl⟩
  unfold readCallOf at h
  split at h
  · obtain ⟨s, hs, rfl⟩ := hsource h
    exact ⟨nofun, fun _ ha => ha, by rintro _ ⟨⟩; exact hs⟩
  · obtain ⟨s, hs, rfl⟩ := hsource h
    exact ⟨nofun, fun _ ha => ha, by rintro _ ⟨⟩; exact hs⟩
  · cases h
  · cases h
  · cases h
  · next hne =>
    obtain ⟨s, hs, rfl⟩ := hsource h
    exact ⟨hne, fun _ ha => ha, by rintro _ ⟨⟩; exact hs⟩
  · split at h
    · split at h
      · cases h
      · next name more =>
        cases h
        refine ⟨nofun, fun a ha => ?_, nofun⟩
        cases more with
        | nil => exact ha
        | cons b more => exact List.mem_of_mem_take (i := 2) ha
    · cases h

/-- Whatever the reader gives can be given. -/
theorem readable_of_readCall {query : Text} {call : Call}
    (h : readCall query = .ok (some call)) : call.Readable := by
  rw [readCall] at h
  split at h
  · cases h
  · next kind body hhead =>
    split at h
    · cases h
    · next inner rest hsplit =>
      obtain ⟨args, hargs, h⟩ := bind_eq_ok_iff.1 h
      obtain ⟨call', hcall, he⟩ := bind_eq_ok_iff.1 h
      cases he
      obtain ⟨hne, hmem, hsource⟩ := readCallOf_eq_ok hcall
      refine ⟨hne, fun a ha => isArgument_of_readArguments hargs a (hmem a ha), fun s hs => ?_⟩
      obtain ⟨hspells, hsuffix⟩ := spells_of_readSource (hsource s hs)
      refine ⟨hspells, fun c hc => (hasBareEnds_trim query).last c ?_⟩
      -- The source ends where the trimmed query does.
      obtain ⟨before, hbefore⟩ : s <:+ Text.trim query := by
        rw [eq_of_readHead? hhead]
        exact hsuffix.trans <| (suffix_of_splitCallFrom? hsplit).trans <| List.suffix_append _ _
      rw [← hbefore, List.getLast?_append, hc]
      rfl

/-- A call that was read is read back from its printed form. -/
theorem readCall_print {query : Text} {call : Call} (h : readCall query = .ok (some call)) :
    readCall call.print = .ok (some call) := by
  have hcall := readable_of_readCall h
  obtain ⟨pieces, hpieces, hargs⟩ := splits_join hcall.args_ne_nil hcall.isArgument
  rw [call.print_eq]
  exact hcall.readCall_eq (by decide) hpieces hargs

/-- A call with FROM and a parenthesis in its arguments. -/
def nestedColumns : Call :=
  .columns "extract(s FROM 'it\\'s), ') k".toList "max(a, b) v".toList "from t WHERE x = ')'".toList

/-- A query that starts with that call, in a form of its own. -/
def nestedColumnsQuery : Text :=
  "\n$columns(\textract(s FROM 'it\\'s), ') k ,".toList
    ++ "max(a, b) v) as r from t WHERE x = ')' ".toList

/-- A call with FROM and parentheses in its arguments is read back from what it prints. -/
theorem readCall_print_nestedColumns :
    readCall nestedColumnsQuery = .ok (some nestedColumns) ∧
    readCall nestedColumns.print = .ok (some nestedColumns) := by
  have h : readCall nestedColumnsQuery = .ok (some nestedColumns) := by decide +kernel
  exact ⟨h, readCall_print h⟩

end Macro

end SeriesQuery
