import SeriesQuery.Proofs.Failure
import SeriesQuery.Proofs.Macro.Nesting
import SeriesQuery.Proofs.Text.Blank

/-!
# The grammar of argument lists

An argument list is a list of pieces with commas between them, each of which is closed, holds more
than blanks, and has no comma at its outermost level (`IsPiece`). `Splits` relates a text to the
pieces it is made of. The reader takes a text apart in the only way there is
(`Splits.unique`): it gives the trimmed pieces where there are some (`Splits.readArguments_eq`),
finds them wherever it succeeds (`splits_of_readArguments`), and reports a malformed call
otherwise. `readArguments_grammar` puts the three together.
-/

namespace SeriesQuery.Macro

open Text Nesting

/-- No comma of the text stands at the outermost level. -/
def NoTopComma (s : Text) : Prop :=
  ∀ before after, s = before ++ ',' :: after → top.scan before ≠ some top

/-- A text that can stand between the commas of an argument list. -/
structure IsPiece (s : Text) : Prop where
  closed : Closed s
  notBlank : ¬ isAllBlank s
  noTopComma : NoTopComma s

/-- A text is these pieces, at least one, with commas between them. -/
structure Splits (input : Text) (pieces : List Text) : Prop where
  ne_nil : pieces ≠ []
  isPiece : ∀ p ∈ pieces, IsPiece p
  join_eq : join [','] pieces = input

theorem noTopComma_nil : NoTopComma [] := by
  intro before after h
  simp at h

/-- One more character keeps commas off the outermost level unless it is one there. -/
theorem NoTopComma.concat {s : Text} {c : Char} (hs : NoTopComma s)
    (hc : ¬ (top.scan s = some top ∧ c = ',')) : NoTopComma (s ++ [c]) := by
  intro before after h
  rcases List.eq_nil_or_concat after with rfl | ⟨init, last, rfl⟩
  · obtain ⟨rfl, hcomma⟩ := List.append_inj' h rfl
    rw [List.singleton_inj] at hcomma
    exact fun hscan => hc ⟨hscan, hcomma⟩
  · rw [List.concat_eq_append, ← List.cons_append, ← List.append_assoc] at h
    exact hs before init (List.append_inj' h rfl).1

/-! ## One piece -/

/-- A piece is read as an argument without the blanks around it, unless it is blank. -/
theorem readArgument_eq_ok_iff {input piece a : Text} :
    readArgument input piece = .ok a ↔ ¬ isAllBlank piece ∧ a = trim piece := by
  rw [← trim_eq_nil_iff, readArgument]
  split
  · next h => simp [h]
  · next h => simp [h, eq_comm]

/-- A piece between commas is read as an argument. -/
theorem IsPiece.readArgument_eq {p : Text} (hp : IsPiece p) (input : Text) :
    readArgument input p = .ok (trim p) :=
  readArgument_eq_ok_iff.2 ⟨hp.notBlank, rfl⟩

/-- No piece goes on behind a comma. -/
theorem IsPiece.ne_append_comma {p q : Text} (hp : IsPiece p) (hq : IsPiece q) (r : Text) :
    p ≠ q ++ ',' :: r :=
  fun h => hp.noTopComma q r h hq.closed

/-- A piece that goes on before the next comma goes on by nothing. -/
theorem IsPiece.append_eq_nil {p a r r' : Text} (hp : IsPiece p) (hq : IsPiece (p ++ a))
    (h : ',' :: r = a ++ ',' :: r') : a = [] ∧ r = r' := by
  cases a with
  | nil => exact ⟨rfl, (List.cons.inj h).2⟩
  | cons c a =>
    obtain ⟨rfl, -⟩ := List.cons.inj h
    exact absurd rfl (hq.ne_append_comma hp a)

/-- The first piece of a list ends at the first comma at the outermost level. -/
theorem IsPiece.append_comma_inj {p q r r' : Text} (hp : IsPiece p) (hq : IsPiece q)
    (h : p ++ ',' :: r = q ++ ',' :: r') : p = q ∧ r = r' := by
  rcases List.append_eq_append_iff.1 h with ⟨a, rfl, ha⟩ | ⟨a, rfl, ha⟩
  · obtain ⟨rfl, rfl⟩ := hp.append_eq_nil hq ha
    exact ⟨(List.append_nil p).symm, rfl⟩
  · obtain ⟨rfl, rfl⟩ := hq.append_eq_nil hp ha
    exact ⟨List.append_nil q, rfl⟩

/-! ## Uniqueness -/

/-- A piece and a comma in front of pieces are one piece more. -/
theorem Splits.cons {rest p : Text} {pieces : List Text} (h : Splits rest pieces)
    (hp : IsPiece p) : Splits (p ++ ',' :: rest) (p :: pieces) := by
  refine ⟨List.cons_ne_nil p pieces, ?_, ?_⟩
  · rintro q (_ | ⟨_, hq⟩)
    · exact hp
    · exact h.isPiece q hq
  · rw [join_cons_of_ne_nil _ _ h.ne_nil, h.join_eq]

/-- Behind the first piece and its comma stand the others. -/
theorem Splits.tail {p q : Text} {pieces : List Text} {input : Text}
    (h : Splits input (p :: q :: pieces)) :
    IsPiece p ∧ ∃ rest, input = p ++ ',' :: rest ∧ Splits rest (q :: pieces) := by
  have hne := List.cons_ne_nil q pieces
  refine ⟨h.isPiece p (List.mem_cons_self ..), _, ?_, hne,
    fun r hr => h.isPiece r (List.mem_cons_of_mem p hr), rfl⟩
  rw [← h.join_eq, join_cons_of_ne_nil _ _ hne]

/-- A text is one piece if it is that piece. -/
theorem splits_singleton_iff {input p : Text} : Splits input [p] ↔ IsPiece p ∧ input = p := by
  constructor
  · intro h
    exact ⟨h.isPiece p (List.mem_cons_self ..), by rw [← h.join_eq, join_singleton]⟩
  · rintro ⟨hp, rfl⟩
    exact ⟨List.cons_ne_nil _ _, by simpa using hp, join_singleton _ _⟩

/-- A text splits into pieces in one way only. -/
theorem Splits.unique : ∀ {ps qs : List Text} {input : Text},
    Splits input ps → Splits input qs → ps = qs
  | [], _, _, hp, _ => absurd rfl hp.ne_nil
  | _, [], _, _, hq => absurd rfl hq.ne_nil
  | [p], [q], _, hp, hq => by
    rw [← (splits_singleton_iff.1 hp).2, ← (splits_singleton_iff.1 hq).2]
  | [p], q :: q' :: qs, _, hp, hq => by
    obtain ⟨hp, rfl⟩ := splits_singleton_iff.1 hp
    obtain ⟨hq, r, h, -⟩ := hq.tail
    exact absurd h (hp.ne_append_comma hq r)
  | p :: p' :: ps, [q], _, hp, hq => by
    obtain ⟨hq, rfl⟩ := splits_singleton_iff.1 hq
    obtain ⟨hp, r, h, -⟩ := hp.tail
    exact absurd h (hq.ne_append_comma hp r)
  | p :: p' :: ps, q :: q' :: qs, _, hp, hq => by
    obtain ⟨hp', r, rfl, hps⟩ := hp.tail
    obtain ⟨hq', r', h, hqs⟩ := hq.tail
    obtain ⟨rfl, rfl⟩ := hp'.append_comma_inj hq' h
    rw [Splits.unique hps hqs]

/-! ## What the reader accepts -/

section
variable (input : Text)

/-- What the reader accepts from a position on is made of pieces, of which the first has begun. -/
theorem splits_of_readArgumentsFrom :
    ∀ {s : Text} {position : Nat} {n : Nesting} {piece : Text} {root : List Text},
      readArgumentsFrom input position n piece s = .ok root →
      top.scan piece.reverse = some n → NoTopComma piece.reverse →
      ∃ pieces, Splits (piece.reverse ++ s) pieces ∧ root = pieces.map trim
  | [], position, n, piece, root, h, hscan, hcomma => by
    unfold readArgumentsFrom at h
    split at h
    · cases h
    · next hmode =>
      split at h
      · cases h
      · next hdepth =>
        obtain ⟨a, ha, hroot⟩ := bind_eq_ok_iff.1 h
        obtain ⟨hblank, rfl⟩ := readArgument_eq_ok_iff.1 ha
        obtain rfl := eq_top (not_not.1 hmode) (not_not.1 hdepth)
        cases hroot
        exact ⟨[piece.reverse], splits_singleton_iff.2
          ⟨⟨hscan, hblank, hcomma⟩, List.append_nil _⟩, rfl⟩
  | c :: r, position, n, piece, root, h, hscan, hcomma => by
    unfold readArgumentsFrom at h
    split at h
    · next hc =>
      obtain ⟨rfl, rfl⟩ := hc
      obtain ⟨a, ha, h⟩ := bind_eq_ok_iff.1 h
      obtain ⟨rest, hrest, hroot⟩ := bind_eq_ok_iff.1 h
      obtain ⟨hblank, rfl⟩ := readArgument_eq_ok_iff.1 ha
      obtain ⟨pieces, hpieces, rfl⟩ := splits_of_readArgumentsFrom hrest rfl noTopComma_nil
      cases hroot
      exact ⟨piece.reverse :: pieces, hpieces.cons ⟨hscan, hblank, hcomma⟩, rfl⟩
    · next hc =>
      split at h
      · cases h
      · next m hm =>
        have hscan' : top.scan (c :: piece).reverse = some m := by
          rw [List.reverse_cons]
          exact scan_concat hscan hm
        have hcomma' : NoTopComma (c :: piece).reverse := by
          rw [List.reverse_cons]
          refine hcomma.concat fun ⟨hs, he⟩ => hc ⟨?_, he⟩
          rw [hscan] at hs
          exact Option.some.inj hs
        obtain ⟨pieces, hpieces, hroot⟩ := splits_of_readArgumentsFrom h hscan' hcomma'
        rw [List.reverse_cons, List.append_assoc, List.singleton_append] at hpieces
        exact ⟨pieces, hpieces, hroot⟩

/-- The reader passes over a part of a piece, and only the position changes. -/
theorem readArgumentsFrom_append (rest : Text) :
    ∀ {q : Text} (position : Nat) (piece : Text) {n m : Nesting},
      top.scan piece.reverse = some n → NoTopComma (piece.reverse ++ q) → n.scan q = some m →
      ∃ position', readArgumentsFrom input position n piece (q ++ rest) =
        readArgumentsFrom input position' m (q.reverse ++ piece) rest
  | [], position, piece, n, m, _, _, hq => by
    rw [scan_nil, Option.some.injEq] at hq
    exact ⟨position, by rw [hq]; rfl⟩
  | c :: q, position, piece, n, m, hscan, hcomma, hq => by
    rw [scan_cons] at hq
    obtain ⟨k, hk, hq⟩ := Option.bind_eq_some_iff.1 hq
    have hc : ¬ (n = top ∧ c = ',') := by
      rintro ⟨rfl, rfl⟩
      exact hcomma piece.reverse q rfl hscan
    have hscan' : top.scan (c :: piece).reverse = some k := by
      rw [List.reverse_cons]
      exact scan_concat hscan hk
    have hcomma' : NoTopComma ((c :: piece).reverse ++ q) := by
      rwa [List.reverse_cons, List.append_assoc, List.singleton_append]
    obtain ⟨position', h⟩ := readArgumentsFrom_append rest _ (c :: piece) hscan' hcomma' hq
    refine ⟨position', ?_⟩
    rw [List.cons_append, readArgumentsFrom, if_neg hc, hk]
    rw [List.reverse_cons, List.append_assoc, List.singleton_append]
    exact h

/-- The reader reads one piece from the outermost level on and is back there. -/
theorem readArgumentsFrom_piece {p : Text} (hp : IsPiece p) (position : Nat) (rest : Text) :
    ∃ position', readArgumentsFrom input position top [] (p ++ rest) =
      readArgumentsFrom input position' top p.reverse rest := by
  obtain ⟨position', h⟩ :=
    readArgumentsFrom_append input rest position [] rfl hp.noTopComma hp.closed
  rw [List.append_nil] at h
  exact ⟨position', h⟩

/-- The reader takes pieces with commas between them apart again. -/
theorem readArgumentsFrom_join : ∀ {pieces : List Text}, pieces ≠ [] → (∀ p ∈ pieces, IsPiece p) →
    ∀ position, readArgumentsFrom input position top [] (join [','] pieces) =
      .ok (pieces.map trim)
  | [], hne, _, _ => absurd rfl hne
  | [p], _, h, position => by
    have hp := h p (List.mem_cons_self ..)
    obtain ⟨position', hread⟩ := readArgumentsFrom_piece input hp position []
    rw [List.append_nil] at hread
    rw [join_singleton, hread, readArgumentsFrom, List.reverse_reverse, hp.readArgument_eq]
    rfl
  | p :: q :: pieces, _, h, position => by
    have hp := h p (List.mem_cons_self ..)
    have hne := List.cons_ne_nil q pieces
    obtain ⟨position', hread⟩ :=
      readArgumentsFrom_piece input hp position (',' :: join [','] (q :: pieces))
    have ih := readArgumentsFrom_join hne fun r hr => h r (List.mem_cons_of_mem p hr)
    rw [join_cons_of_ne_nil _ _ hne, hread, readArgumentsFrom, if_pos ⟨rfl, rfl⟩,
      List.reverse_reverse, hp.readArgument_eq]
    show (readArgumentsFrom input _ top [] (join [','] (q :: pieces)) >>=
      fun args => pure (trim p :: args)) = _
    rw [ih]
    rfl

end

/-! ## The whole reader -/

/-- A text that splits into pieces holds more than blanks. -/
theorem Splits.notBlank {input : Text} {pieces : List Text} (h : Splits input pieces) :
    ¬ isAllBlank input := by
  obtain ⟨p, rest, rfl⟩ := List.exists_cons_of_ne_nil h.ne_nil
  have hp := (h.isPiece p (List.mem_cons_self ..)).notBlank
  rw [isAllBlank_iff] at hp ⊢
  refine fun hall => hp fun c hc => hall c ?_
  rw [← h.join_eq]
  cases rest with
  | nil => rwa [join_singleton]
  | cons q rest =>
    rw [join_cons_of_ne_nil _ _ (List.cons_ne_nil q rest)]
    exact List.mem_append_left _ hc

/-- The arguments of a text that splits into pieces are these, trimmed. -/
theorem Splits.readArguments_eq {input : Text} {pieces : List Text} (h : Splits input pieces) :
    readArguments input = .ok (pieces.map trim) := by
  have hblank : ¬ trim input = [] := fun ht => h.notBlank (trim_eq_nil_iff.1 ht)
  rw [readArguments, if_neg hblank]
  have := readArgumentsFrom_join input h.ne_nil h.isPiece 0
  rwa [h.join_eq] at this

/-- A text of blanks has no arguments. -/
theorem readArguments_of_isAllBlank {input : Text} (h : isAllBlank input) :
    readArguments input = .ok [] := by
  rw [readArguments, if_pos (trim_eq_nil_iff.2 h)]

/-- Arguments are the trimmed pieces of their text, unless that is all blank. -/
theorem splits_of_readArguments {input : Text} {root : List Text} (hb : ¬ isAllBlank input)
    (h : readArguments input = .ok root) :
    ∃ pieces, Splits input pieces ∧ root = pieces.map trim := by
  rw [readArguments, if_neg fun ht => hb (trim_eq_nil_iff.1 ht)] at h
  exact splits_of_readArgumentsFrom input h rfl noTopComma_nil

/-- The reader of arguments accepts exactly the texts of blanks, which have no arguments, and the
texts that split into pieces, which they do in one way only; the arguments are the trimmed pieces.
Every other text is a malformed call. -/
theorem readArguments_grammar (input : Text) :
    (isAllBlank input → readArguments input = .ok []) ∧
    (¬ isAllBlank input →
      (∀ root, readArguments input = .ok root ↔
        ∃ pieces, Splits input pieces ∧ root = pieces.map trim) ∧
      (∀ ps qs, Splits input ps → Splits input qs → ps = qs) ∧
      ((¬ ∃ pieces, Splits input pieces) →
        ∃ cause, readArguments input = .error (.malformed cause))) := by
  refine ⟨readArguments_of_isAllBlank, fun hb => ⟨fun root => ⟨splits_of_readArguments hb, ?_⟩,
    fun ps qs => Splits.unique, fun hnone => ?_⟩⟩
  · rintro ⟨pieces, hpieces, rfl⟩
    exact hpieces.readArguments_eq
  · cases h : readArguments input with
    | ok root =>
      obtain ⟨pieces, hpieces, -⟩ := splits_of_readArguments hb h
      exact absurd ⟨pieces, hpieces⟩ hnone
    | error e =>
      obtain ⟨cause, rfl⟩ := readArguments_failsWith input e h
      exact ⟨cause, rfl⟩

/-- A comma in a literal does not split an argument. -/
theorem readArguments_grammar_quotedComma :
    ¬ isAllBlank "if(a, ')\\',') k , v".toList ∧
    ∃ pieces, Splits "if(a, ')\\',') k , v".toList pieces ∧
      ["if(a, ')\\',') k".toList, "v".toList] = pieces.map trim := by
  have hb : ¬ isAllBlank "if(a, ')\\',') k , v".toList := by decide
  exact ⟨hb, (((readArguments_grammar _).2 hb).1 _).1 rfl⟩

end SeriesQuery.Macro
