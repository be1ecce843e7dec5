import Precedence.Proofs.Lexer.Tokens
import Precedence.Proofs.Session.Coming

/-!
Where the tokens of a source stand. They follow one another without overlapping, each of them covers
some text, and the end of the input stands behind the whole source. What is skipped between tokens
may be of any kind, since skipping only ever goes forward.
-/
namespace Precedence

/-- One span lies within another. -/
def Span.IsWithin (s t : Span) : Prop := t.start ≤ s.start ∧ s.stop ≤ t.stop

theorem Span.IsWithin.trans {s t u : Span} (h : s.IsWithin t) (h' : t.IsWithin u) : s.IsWithin u :=
  ⟨Nat.le_trans h'.1 h.1, Nat.le_trans h.2 h'.2⟩

theorem Span.IsWithin.refl (s : Span) : s.IsWithin s := ⟨Nat.le_refl _, Nat.le_refl _⟩

namespace Cursor

theorem offset_le_advanceBy (c : Cursor) (n : Nat) : c.offset ≤ (c.advanceBy n).offset := by
  rw [offset_advanceBy]
  exact Nat.le_add_right _ _

/-- Reading on moves a cursor that is not at the end. -/
theorem offset_lt_advanceBy {c : Cursor} {n : Nat} (hMore : c.rest ≠ []) (hPos : 0 < n) :
    c.offset < (c.advanceBy n).offset := by
  obtain ⟨x, rest, hRest⟩ := List.exists_cons_of_ne_nil hMore
  obtain ⟨n, rfl⟩ := Nat.exists_eq_succ_of_ne_zero (Nat.ne_of_gt hPos)
  have hWide := Char.utf8Size_pos x
  rw [offset_advanceBy, hRest, List.take_succ_cons, Text.byteLength_cons]
  omega

theorem offset_advanceBy_le (c : Cursor) {m n : Nat} (h : m ≤ n) :
    (c.advanceBy m).offset ≤ (c.advanceBy n).offset := by
  rw [← Nat.add_sub_of_le h, ← advanceBy_advanceBy]
  exact offset_le_advanceBy _ _

/-- A cursor at the end of its source stands behind all of it. -/
theorem IsIn.offset_of_rest_eq_nil {source : List Char} {c : Cursor} (h : c.IsIn source)
    (hEnd : c.rest = []) : c.offset = Text.byteLength source := by
  obtain ⟨read, hSource, hOffset⟩ := h
  rw [hOffset, hSource, hEnd, List.append_nil]

end Cursor

/-! ### One token -/

namespace LiteralRule

/-- A literal covers what was read for it. -/
theorem span_of_read? {rule : LiteralRule} {c : Cursor} {reading : LiteralReading}
    (hBuiltIn : rule.isBuiltIn = true) (h : rule.read? c = some reading) :
    reading.token.range.span = ⟨c.offset, (c.advanceBy reading.width).offset⟩ := by
  cases rule with
  | number format =>
      rw [read?] at h
      split at h
      · cases h
        rfl
      · cases h
  | string opening closing escape =>
      rw [read?] at h
      split at h
      · cases h
        rfl
      · cases h
  | boolean ignoreCase =>
      obtain ⟨word, -, rfl⟩ := Option.map_eq_some_iff.mp h
      rfl
  | custom read? => cases hBuiltIn

end LiteralRule

namespace Lexicon

variable {lx : Lexicon}

/-- A token starts at the cursor where it is found, covers some text there, and goes no further than
what is done with once it has been found. -/
structure StandsAt (r : Recognition) (c : Cursor) : Prop where
  start : r.token.range.span.start = c.offset
  solid : c.offset < r.token.range.span.stop
  stop : r.token.range.span.stop ≤ (c.advanceBy r.taken).offset

/-- So does a token that covers the characters that were read for it. -/
theorem standsAt_of_span {c : Cursor} {r : Recognition} (hMore : c.rest ≠ [])
    (hSpan : r.token.range.span = ⟨c.offset, (c.advanceBy r.width).offset⟩) (hSome : 0 < r.width) :
    StandsAt r c := by
  have hTaken : r.width ≤ r.taken := by
    unfold Recognition.taken
    split <;> omega
  refine ⟨?_, ?_, ?_⟩
  all_goals rw [hSpan]
  · exact Cursor.offset_lt_advanceBy hMore hSome
  · exact c.offset_advanceBy_le hTaken

theorem standsAt_recogniseInvalid {c : Cursor} (hMore : c.rest ≠ []) :
    StandsAt (recogniseInvalid c) c := by
  have hTaken : (c.advanceBy 1).offset = c.offset + c.current.utf8Size := by
    rw [c.advanceBy_one, Cursor.advance_of_ne_nil hMore]
  exact ⟨rfl, Nat.lt_add_of_pos_right (Char.utf8Size_pos _), Nat.le_of_eq hTaken.symm⟩

/-- Recognising a token does so as well if the rules for literals are the library's. -/
theorem standsAt_recognise (hLiterals : ∀ rule ∈ lx.literals, rule.isBuiltIn = true) {c : Cursor}
    (hMore : c.rest ≠ []) : StandsAt (lx.recognise c) c := by
  unfold recognise
  split
  · next messages reading hRead =>
    obtain ⟨rule, hMem, hRule⟩ := LiteralRule.mem_of_readFirst hRead
    exact standsAt_of_span hMore (LiteralRule.span_of_read? (hLiterals rule hMem) hRule)
      (Nat.pos_of_ne_zero (width_ne_zero_of_readFirst hRead))
  · split
    · next p hFound => exact standsAt_of_span hMore rfl p.length_pos
    · split
      · exact standsAt_of_span hMore rfl (Nat.lt_of_lt_of_le Nat.one_pos (Nat.le_max_right _ _))
      · have hStands := standsAt_recogniseInvalid hMore
        exact ⟨hStands.start, hStands.solid, hStands.stop⟩

/-! ### All tokens -/

theorem skip_of_end (lx : Lexicon) {c : Cursor} (h : c.rest = []) : lx.skip c = (c, []) := by
  rw [skip, skipFrom, dif_pos h]

/-- The tokens that are read from a cursor on, one after the other and the end of the input last. -/
inductive Reads (lx : Lexicon) : Cursor → List Lexeme → Prop
  | ending {c : Cursor} (hEnd : (lx.skip c).1.rest = []) :
      Reads lx c [⟨(lx.skip c).1.emptyToken .eof, (lx.skip c).2⟩]
  | next {c : Cursor} {lexemes : List Lexeme} (hMore : (lx.skip c).1.rest ≠ [])
      (hRest : Reads lx ((lx.skip c).1.advanceBy (lx.recognise (lx.skip c).1).taken) lexemes) :
      Reads lx c (⟨(lx.recognise (lx.skip c).1).token,
        (lx.skip c).2 ++ (lx.recognise (lx.skip c).1).messages⟩ :: lexemes)

theorem exists_reads (lx : Lexicon) (found : List Lexeme) (c : Cursor) :
    ∃ lexemes, lx.lexemesFrom found c = found.reverse ++ lexemes ∧ lx.Reads c lexemes := by
  fun_induction lexemesFrom lx found c with
  | case1 found c skipped hEnd =>
      exact ⟨_, List.reverse_cons, .ending hEnd⟩
  | case2 found c skipped hEnd r ih =>
      obtain ⟨lexemes, hAll, hReads⟩ := ih
      refine ⟨_, ?_, .next hEnd hReads⟩
      rw [hAll, List.reverse_cons, List.append_assoc]
      rfl

/-- The tokens of a source are those that are read from its start on. -/
theorem reads_lexemes (lx : Lexicon) (source : List Char) :
    lx.Reads (.ofSource source) (lx.lexemes source) := by
  obtain ⟨lexemes, hAll, hReads⟩ := lx.exists_reads [] (.ofSource source)
  rw [Lexicon.lexemes, hAll]
  exact hReads

/-- The last of them is the end of the input, and covers nothing. -/
theorem Reads.exists_last {lx : Lexicon} {c : Cursor} {lexemes : List Lexeme}
    (h : lx.Reads c lexemes) :
    ∃ messages stop, lexemes.getLast? = some ⟨Cursor.emptyToken stop .eof, messages⟩ := by
  induction h with
  | ending => exact ⟨_, _, rfl⟩
  | next _ _ ih =>
      obtain ⟨messages, stop, hLast⟩ := ih
      refine ⟨messages, stop, ?_⟩
      rw [List.getLast?_cons, hLast, Option.getD_some]

theorem offset_le_skip (lx : Lexicon) (c : Cursor) : c.offset ≤ (lx.skip c).1.offset := by
  unfold skip
  fun_induction skipFrom lx [] c with
  | case1 => exact Nat.le_refl _
  | case2 => exact Nat.le_refl _
  | case3 reported c reading hEnd hStill ih => exact Nat.le_trans (c.offset_le_advanceBy _) ih

section

variable {source : List Char} {c : Cursor} {lexemes : List Lexeme}

/-- Every token stands behind the cursor that it is read from. -/
theorem Reads.offset_le (h : lx.Reads c lexemes)
    (hLiterals : ∀ rule ∈ lx.literals, rule.isBuiltIn = true) :
    ∀ lexeme ∈ lexemes, c.offset ≤ lexeme.token.range.span.start := by
  induction h with
  | @ending c hEnd => exact List.forall_mem_singleton.mpr (lx.offset_le_skip c)
  | @next c lexemes hMore hRest ih =>
      have hSkip := lx.offset_le_skip c
      refine List.forall_mem_cons.mpr ⟨?_, fun lexeme hMem => ?_⟩
      · exact Nat.le_trans hSkip (Nat.le_of_eq (standsAt_recognise hLiterals hMore).start.symm)
      · have hRead := (lx.skip c).1.offset_le_advanceBy (lx.recognise (lx.skip c).1).taken
        exact Nat.le_trans hSkip (Nat.le_trans hRead (ih lexeme hMem))

end

end Lexicon

/-- One token ends before another starts. -/
def Token.Precedes (τ υ : Token) : Prop := τ.range.span.stop ≤ υ.range.span.start

/-- A token covers some text of a source, unless it is the end, which stands behind all text. -/
def Token.StandsIn (source : List Char) (τ : Token) : Prop :=
  if τ.symbol = .eof then τ.range.span = .point (Text.byteLength source)
  else τ.range.span.start < τ.range.span.stop

namespace Lexicon

variable {lx : Lexicon} {source : List Char} {c : Cursor} {lexemes : List Lexeme}

theorem Reads.pairwise (h : lx.Reads c lexemes)
    (hLiterals : ∀ rule ∈ lx.literals, rule.isBuiltIn = true) :
    (lexemes.map (·.token)).Pairwise Token.Precedes := by
  induction h with
  | ending hEnd => exact List.pairwise_singleton _ _
  | @next c lexemes hMore hRest ih =>
      refine List.pairwise_cons.mpr ⟨List.forall_mem_map.mpr fun lexeme hMem => ?_, ih⟩
      exact Nat.le_trans (standsAt_recognise hLiterals hMore).stop
        (hRest.offset_le hLiterals lexeme hMem)

theorem Reads.forward (h : lx.Reads c lexemes)
    (hLiterals : ∀ rule ∈ lx.literals, rule.isBuiltIn = true) :
    ∀ lexeme ∈ lexemes, lexeme.token.range.span.start ≤ lexeme.token.range.span.stop := by
  induction h with
  | ending hEnd => exact List.forall_mem_singleton.mpr (Nat.le_refl _)
  | @next c lexemes hMore hRest ih =>
      have hStands := standsAt_recognise hLiterals hMore
      refine List.forall_mem_cons.mpr ⟨?_, ih⟩
      rw [hStands.start]
      exact Nat.le_of_lt hStands.solid

theorem Reads.standsIn (h : lx.Reads c lexemes) (hOrdinary : lx.IsOrdinary) (hIn : c.IsIn source) :
    ∀ lexeme ∈ lexemes, lexeme.token.StandsIn source := by
  induction h with
  | @ending c hEnd =>
      have hSkipped : (lx.skip c).1.IsIn source := lx.isIn_skipFrom [] hIn
      exact List.forall_mem_singleton.mpr
        (congrArg Span.point (hSkipped.offset_of_rest_eq_nil hEnd))
  | @next c lexemes hMore hRest ih =>
      have hSkipped : (lx.skip c).1.IsIn source := lx.isIn_skipFrom [] hIn
      refine List.forall_mem_cons.mpr ⟨?_, ih (hSkipped.advanceBy _)⟩
      have hStands := standsAt_recognise hOrdinary.literals hMore
      rw [Token.StandsIn, if_neg (hOrdinary.recognises _).symbol_ne_eof, hStands.start]
      exact hStands.solid

end Lexicon

/-! ### What a session finds -/

/-- Tokens one behind the other, none of which ends before it starts. -/
structure IsOrdered (tokens : Stream' Token) : Prop where
  precedes {i j : Nat} : i < j → (tokens.get i).Precedes (tokens.get j)
  forward (i : Nat) : (tokens.get i).range.span.start ≤ (tokens.get i).range.span.stop

/-- Tokens as they stand in a source, the first of them at its start, and the end behind every
token. -/
structure IsLayout (source : List Char) (tokens : Stream' Token) : Prop extends
    IsOrdered tokens where
  start : (tokens.get 0).range.span = .point 0
  standsIn (i : Nat) : (tokens.get (i + 1)).StandsIn source
  ends (i : Nat) : ∃ j, i < j ∧ (tokens.get j).symbol = .eof

section

variable {α : Type} (xs : List α) (x : α)

/-- A list whose last member is repeated for ever has no other members. -/
theorem get_append_const_mem (i : Nat) : (xs ++ₛ Stream'.const x).get i ∈ xs ++ [x] := by
  induction xs generalizing i with
  | nil =>
      rw [Stream'.nil_append_stream, Stream'.get_const]
      exact List.mem_singleton_self x
  | cons y ys ih =>
      rw [Stream'.cons_append_stream]
      cases i with
      | zero => exact List.mem_cons_self
      | succ i => exact List.mem_cons_of_mem _ (ih i)

/-- And all of these it has. -/
theorem exists_get_append_const {y : α} (h : y ∈ xs ++ [x]) :
    ∃ i, (xs ++ₛ Stream'.const x).get i = y := by
  induction xs with
  | nil => exact ⟨0, (List.mem_singleton.mp h).symm⟩
  | cons first xs ih =>
      rw [Stream'.cons_append_stream]
      rcases List.mem_cons.mp h with rfl | hLater
      · exact ⟨0, rfl⟩
      · obtain ⟨i, hFound⟩ := ih hLater
        exact ⟨i + 1, hFound⟩

/-- What holds in order between the members of a list, and of its last member and itself, holds in
order when that member is repeated for ever. -/
theorem get_append_const_of_pairwise {R : α → α → Prop} (h : (xs ++ [x]).Pairwise R) (hLast : R x x)
    {i j : Nat} (hLess : i < j) :
    R ((xs ++ₛ Stream'.const x).get i) ((xs ++ₛ Stream'.const x).get j) := by
  induction xs generalizing i j with
  | nil => exact hLast
  | cons y ys ih =>
      obtain ⟨hFirst, hRest⟩ := List.pairwise_cons.mp h
      obtain ⟨j, rfl⟩ := Nat.exists_eq_succ_of_ne_zero (Nat.ne_zero_of_lt hLess)
      rw [Stream'.cons_append_stream]
      cases i with
      | zero => exact hFirst _ (get_append_const_mem ys x j)
      | succ i => exact ih hRest (Nat.lt_of_succ_lt_succ hLess)

end

/-- What the lexer reports is all that will have been reported if nothing else is. -/
theorem Session.log_ofSource (lx : Lexicon) (source : List Char) :
    (ofSource lx source).log = (lx.lexemes source).flatMap (·.messages) := rfl

/-- The tokens that a session has before it when a source is opened are in order. -/
theorem Session.isOrdered_ofSource {lx : Lexicon}
    (hLiterals : ∀ rule ∈ lx.literals, rule.isBuiltIn = true) (source : List Char) :
    IsOrdered (ofSource lx source).coming := by
  obtain ⟨body, last, hAll, -, -⟩ := lx.exists_lexemes_eq source
  have hReads := lx.reads_lexemes source
  have hForward : ∀ τ ∈ (lx.lexemes source).map (·.token),
      τ.range.span.start ≤ τ.range.span.stop :=
    List.forall_mem_map.mpr (hReads.forward hLiterals)
  have hPairwise := hReads.pairwise hLiterals
  obtain ⟨messages, stop, hLast⟩ := hReads.exists_last
  rw [hAll, List.getLast?_concat] at hLast
  rw [hAll, List.map_append, List.map_singleton] at hForward hPairwise
  rw [coming_ofSource hAll]
  have hEnd : last.token.Precedes last.token := by
    rw [Option.some.inj hLast]
    exact Nat.le_refl _
  refine ⟨fun {i j} hLess => ?_, fun i => ?_⟩
  · obtain ⟨j, rfl⟩ := Nat.exists_eq_succ_of_ne_zero (Nat.ne_zero_of_lt hLess)
    cases i with
    | zero => exact Nat.zero_le _
    | succ i =>
        exact get_append_const_of_pairwise _ _ hPairwise hEnd (Nat.lt_of_succ_lt_succ hLess)
  · cases i with
    | zero => exact Nat.le_refl _
    | succ i => exact hForward _ (get_append_const_mem _ _ i)

/-- In an ordinary lexicon they stand in the source. -/
theorem Session.isLayout_ofSource {lx : Lexicon} (h : lx.IsOrdinary) (source : List Char) :
    IsLayout source (ofSource lx source).coming := by
  obtain ⟨body, last, hAll, hLast, -⟩ := lx.exists_lexemes_eq source
  have hReads := lx.reads_lexemes source
  have hStands := List.forall_mem_map.mpr (hReads.standsIn h (Cursor.isIn_ofSource source))
  have hOrdered := isOrdered_ofSource h.literals source
  rw [hAll, List.map_append, List.map_singleton] at hStands
  rw [coming_ofSource hAll] at hOrdered ⊢
  refine ⟨hOrdered, rfl, fun i => ?_, fun i => ⟨body.length + 1 + i, by omega, ?_⟩⟩
  · exact hStands _ (get_append_const_mem _ _ i)
  · have hDrop := Stream'.drop_append_stream (body.map (·.token)) (Stream'.const last.token)
    rw [List.length_map] at hDrop
    have hFound : (body.map (·.token) ++ₛ Stream'.const last.token).get (body.length + i) =
        last.token := by
      rw [← Stream'.get_drop, hDrop, Stream'.get_const]
    rw [Nat.add_right_comm]
    exact (congrArg (·.symbol) hFound).trans hLast

/-- No token goes past the end of its source. -/
theorem IsLayout.stop_le {source : List Char} {tokens : Stream' Token}
    (h : IsLayout source tokens) (i : Nat) :
    (tokens.get i).range.span.stop ≤ Text.byteLength source := by
  obtain ⟨j, hLess, hEnd⟩ := h.ends i
  obtain ⟨j, rfl⟩ := Nat.exists_eq_succ_of_ne_zero (Nat.ne_zero_of_lt hLess)
  have hStands := h.standsIn j
  rw [Token.StandsIn, if_pos hEnd] at hStands
  have hPrecedes := h.precedes hLess
  rw [Token.Precedes, hStands] at hPrecedes
  exact hPrecedes

/-- No two tokens cover the same text. -/
theorem IsOrdered.index_eq {tokens : Stream' Token} (h : IsOrdered tokens) {span : Span} {i j : Nat}
    (hSome : span.start < span.stop) (hFirst : span.IsWithin (tokens.get i).range.span)
    (hSecond : span.IsWithin (tokens.get j).range.span) : i = j := by
  have hApart {i j : Nat} (hLess : i < j) (hFirst : span.IsWithin (tokens.get i).range.span)
      (hSecond : span.IsWithin (tokens.get j).range.span) : False := by
    have hPrecedes := h.precedes hLess
    rw [Token.Precedes] at hPrecedes
    exact absurd hSome (Nat.not_lt_of_le
      (Nat.le_trans hFirst.2 (Nat.le_trans hPrecedes hSecond.1)))
  rcases Nat.lt_trichotomy i j with hLess | hSame | hMore
  · exact (hApart hLess hFirst hSecond).elim
  · exact hSame
  · exact (hApart hMore hSecond hFirst).elim

/-- Tokens one behind the other, none of which ends before it starts. -/
structure AreInOrder (tokens : List Token) : Prop where
  pairwise : tokens.Pairwise Token.Precedes
  forward : ∀ τ ∈ tokens, τ.range.span.start ≤ τ.range.span.stop

namespace AreInOrder

variable {tokens : List Token}

theorem sublist {some : List Token} (h : AreInOrder tokens) (hSome : some.Sublist tokens) :
    AreInOrder some :=
  ⟨h.pairwise.sublist hSome, fun τ hMem => h.forward τ (hSome.subset hMem)⟩

/-- The first of them starts first. -/
theorem start_le {first : Token} (h : AreInOrder tokens) (hFirst : tokens.head? = some first) :
    ∀ τ ∈ tokens, first.range.span.start ≤ τ.range.span.start := by
  obtain ⟨rest, rfl⟩ := List.head?_eq_some_iff.mp hFirst
  refine List.forall_mem_cons.mpr ⟨Nat.le_refl _, fun τ hMem => ?_⟩
  exact Nat.le_trans (h.forward first List.mem_cons_self)
    ((List.pairwise_cons.mp h.pairwise).1 τ hMem)

/-- The last of them ends last. -/
theorem stop_le {last : Token} (h : AreInOrder tokens) (hLast : tokens.getLast? = some last) :
    ∀ τ ∈ tokens, τ.range.span.stop ≤ last.range.span.stop := by
  obtain ⟨before, rfl⟩ := List.getLast?_eq_some_iff.mp hLast
  refine List.forall_mem_append.mpr ⟨fun τ hMem => ?_,
    List.forall_mem_singleton.mpr (Nat.le_refl _)⟩
  have hSelf := List.mem_singleton_self last
  exact Nat.le_trans ((List.pairwise_append.mp h.pairwise).2.2 τ hMem last hSelf)
    (h.forward last (List.mem_append_right _ hSelf))

end AreInOrder

/-- The members of a part of a sequence are members of it. -/
theorem exists_get_of_mem_take {α : Type} {xs : Stream' α} {m : Nat} {x : α}
    (h : x ∈ xs.take m) : ∃ i, x = xs.get i := by
  obtain ⟨i, hLess, rfl⟩ := List.mem_iff_getElem.mp h
  have hFound := Stream'.getElem?_take (s := xs)
    (Nat.lt_of_lt_of_eq hLess (Stream'.length_take m _))
  rw [List.getElem?_eq_getElem hLess] at hFound
  exact ⟨i, Option.some.inj hFound⟩

theorem exists_get_of_mem_take_drop {α : Type} {xs : Stream' α} {n m : Nat} {x : α}
    (h : x ∈ (xs.drop n).take m) : ∃ i, x = xs.get (n + i) := by
  obtain ⟨i, rfl⟩ := exists_get_of_mem_take h
  exact ⟨i, Stream'.get_drop i n xs⟩

/-- What a session finds from some token on is in order. -/
theorem IsOrdered.areInOrder {tokens : Stream' Token} (h : IsOrdered tokens) (n m : Nat) :
    AreInOrder ((tokens.drop n).take m) := by
  refine ⟨?_, fun τ hMem => ?_⟩
  · induction m generalizing n with
    | zero => exact List.Pairwise.nil
    | succ m ih =>
        rw [Stream'.take_succ, Stream'.tail_drop']
        refine List.pairwise_cons.mpr ⟨fun τ hMem => ?_, ih (n + 1)⟩
        obtain ⟨i, rfl⟩ := exists_get_of_mem_take_drop hMem
        rw [Stream'.head_drop]
        exact h.precedes (by omega)
  · obtain ⟨i, rfl⟩ := exists_get_of_mem_take_drop hMem
    exact h.forward _

theorem IsOrdered.areInOrder_take {tokens : Stream' Token} (h : IsOrdered tokens) (m : Nat) :
    AreInOrder (tokens.take m) := by
  have hInOrder := h.areInOrder 0 m
  rwa [Stream'.drop_zero] at hInOrder

/-- A token behind the first that is not the end covers some text. -/
theorem IsLayout.solid {source : List Char} {tokens : Stream' Token}
    (h : IsLayout source tokens) {n m : Nat} {τ : Token}
    (hMem : τ ∈ (tokens.drop (n + 1)).take m) (hMore : τ.symbol ≠ .eof) :
    τ.range.span.start < τ.range.span.stop := by
  obtain ⟨i, rfl⟩ := exists_get_of_mem_take_drop hMem
  have hStands := h.standsIn (n + i)
  rw [Nat.add_right_comm] at hStands
  rwa [Token.StandsIn, if_neg hMore] at hStands

end Precedence
