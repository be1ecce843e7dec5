import Precedence.Proofs.Separators.Expressions

/-!
Separators in a block mean nothing. A run of separators is skipped in one go before each statement
and before the terminator; behind a statement the first of a run is taken as the boundary, and the
others are skipped in the next turn. So any number of them may stand in front of the first statement
and behind the last, and any number but none between two statements.
-/
namespace Precedence

open Session

namespace Engine

variable {e : Engine} {separator terminator : Symbol} {wrap : Bool} {s₀ s : Session}
  {leading : List Token} {closing : Token} {rest later : Stream' Token}

/-- A run of separators is skipped, up to a token that is none. -/
theorem exists_skipLeading {rounds : Nat}
    (hLeading : ∀ token ∈ leading, token.symbol = separator)
    (hComing : s.coming = leading ++ₛ later) (hOther : later.head.symbol ≠ separator)
    (hRounds : leading.length < rounds) :
    ∃ t, skipSeparators separator rounds s = some t ∧ s.Reaches later t := by
  induction leading generalizing rounds s with
  | nil =>
      obtain ⟨rounds, rfl⟩ := Nat.exists_eq_add_one.mpr hRounds
      rw [Stream'.nil_append_stream] at hComing
      refine ⟨s.peeked, ?_, reaches_peeked_of hComing⟩
      rw [skipSeparators_succ, hComing, if_neg hOther]
  | cons token leading ih =>
      obtain ⟨rounds, rfl⟩ := Nat.exists_eq_add_one.mpr (Nat.zero_lt_of_lt hRounds)
      obtain ⟨hToken, hLeading⟩ := List.forall_mem_cons.mp hLeading
      rw [Stream'.cons_append_stream] at hComing
      have hConsumed := reaches_consume_of hComing
      obtain ⟨t, hSkip, hReach⟩ :=
        ih hLeading hConsumed.coming (Nat.lt_of_succ_lt_succ hRounds)
      refine ⟨t, ?_, hConsumed.trans hReach⟩
      rw [skipSeparators_succ, hComing, Stream'.head_cons, if_pos hToken]
      exact hSkip

/-- Behind a statement that a separator or the terminator follows, nothing is skipped and nothing is
reported. A separator is consumed. -/
theorem afterStatement_of_boundary (hDistinct : separator ≠ terminator) {separators : List Token}
    (hSeparators : ∀ token ∈ separators, token.symbol = separator)
    (hComing : s.coming = separators ++ₛ later)
    (hLater : separators = [] → later.head.symbol = terminator) (failed : Bool) :
    ∃ t, e.afterStatement separator terminator failed s = some (none, t) ∧
      s.Reaches (separators.tail ++ₛ later) t := by
  cases separators with
  | nil =>
      rw [Stream'.nil_append_stream] at hComing
      have hHead := hLater rfl
      refine ⟨s.peeked, ?_, reaches_peeked_of hComing⟩
      rw [afterStatement_eq, hComing, hHead, if_neg hDistinct.symm, if_pos (.inl rfl)]
  | cons token separators =>
      rw [Stream'.cons_append_stream] at hComing
      refine ⟨s.consume.2, ?_, reaches_consume_of hComing⟩
      rw [afterStatement_eq, hComing, Stream'.head_cons,
        if_pos (hSeparators token List.mem_cons_self)]

/-- The loop over the statements of a block reads the segments, whatever separators there are. -/
theorem exists_statementsFrom {segments : List Segment} (hDistinct : separator ≠ terminator)
    (hSegments : s₀.ReadsSegments (e.statement wrap) separator terminator
      [separator, terminator, .eof] segments)
    (hBetween : ∀ p ∈ segments.dropLast, p.separators ≠ [])
    (hBounded : ∀ p ∈ segments, p.separators.length ≤ e.rounds)
    (hClosing : closing.symbol = terminator) {turns : Nat} (hTurns : segments.length < turns)
    (hLeading : ∀ token ∈ leading, token.symbol = separator)
    (hRounds : leading.length < e.rounds)
    (hReach : s₀.Reaches
      (leading ++ₛ (segments.flatMap Segment.written ++ₛ .cons closing rest)) s)
    (found : List NodeId) :
    ∃ ids t, e.statementsFrom (some separator) terminator wrap turns found s =
        some (found.reverse ++ ids, t) ∧
      s.Reaches rest t ∧ t.previous = closing ∧
      t.arena.AreTrees (segments.map Segment.tree) ids := by
  induction segments generalizing leading turns s found with
  | nil =>
      obtain ⟨turns, rfl⟩ := Nat.exists_eq_add_one.mpr (Nat.zero_lt_of_lt hTurns)
      rw [List.flatMap_nil, Stream'.nil_append_stream] at hReach
      obtain ⟨t, hSkip, hSkipped⟩ := exists_skipLeading hLeading hReach.coming
        (by rw [Stream'.head_cons, hClosing]; exact hDistinct.symm) hRounds
      refine ⟨[], t.consume.2, ?_, hSkipped.trans (reaches_consume_of hSkipped.coming),
        previous_consume_of hSkipped.coming, rfl⟩
      rw [statementsFrom_succ, skipBefore, hSkip, Option.bind_some, hSkipped.coming,
        Stream'.head_cons, if_pos hClosing, List.append_nil]
  | cons p segments ih =>
      obtain ⟨turns, rfl⟩ := Nat.exists_eq_add_one.mpr (Nat.zero_lt_of_lt hTurns)
      obtain ⟨hBounded, hLater⟩ := List.forall_mem_cons.mp hBounded
      have hSeparators := hSegments.separators p List.mem_cons_self
      -- the separators in front are skipped, and the statement is read
      have hOther := hSegments.head_notMem (.cons closing rest)
      rw [List.mem_cons, not_or] at hOther
      obtain ⟨u, hSkip, hSkipped⟩ :=
        exists_skipLeading hLeading hReach.coming hOther.1 hRounds
      obtain ⟨hStart, id, v, hParse, hRead, hTree⟩ :=
        hSegments.exists_read hBetween hClosing (hReach.trans hSkipped)
      simp only [List.mem_cons, List.not_mem_nil, or_false, not_or] at hStart
      -- the first separator behind it is taken as the boundary
      obtain ⟨w, hAfter, hPassed⟩ := e.afterStatement_of_boundary hDistinct hSeparators
        hRead.coming (fun hNone => by simp [eq_nil_of_separators hBetween hNone, hClosing])
        (decide (u.peeked.errorCount < v.errorCount))
      have hHere := hSkipped.trans (hRead.trans hPassed)
      obtain ⟨ids, t, hRest, hEnds, hPrevious, hTrees⟩ := ih hSegments.tail
        (fun q hMem => hBetween q (mem_dropLast_cons hMem)) hLater
        (Nat.lt_of_succ_lt_succ hTurns)
        (fun token hMem => hSeparators token (List.mem_of_mem_tail hMem))
        (by rw [List.length_tail]; omega) (hReach.trans hHere) (id :: found)
      refine ⟨id :: ids, t, ?_, hHere.trans hEnds, hPrevious,
        ⟨id, ids, rfl, hTree.mono (hPassed.arena.trans hEnds.arena), hTrees⟩⟩
      rw [statementsFrom_succ, skipBefore, hSkip, Option.bind_some, if_neg hStart.2.1,
        if_neg hStart.2.2, hParse, Option.bind_some]
      dsimp only
      rw [hAfter, Option.bind_some]
      dsimp only
      rw [Option.toList_none, List.nil_append, hRest, List.reverse_cons, List.append_assoc,
        List.singleton_append]

/-- Extra separators in a block mean nothing. Whatever parses the statements, and whatever the
policy about errors is: on any number of statements, with any separators before the first and behind
the last of them and at least one between neighbours, a block consumes everything through its
terminator, reports nothing, and is a node with the trees of the statements and no others. -/
theorem block_of_segments {opening : SourceRange} {segments : List Segment}
    (hDistinct : separator ≠ terminator)
    (hLeading : ∀ token ∈ leading, token.symbol = separator)
    (hSegments : s.ReadsSegments (e.statement wrap) separator terminator
      [separator, terminator, .eof] segments)
    (hBetween : ∀ p ∈ segments.dropLast, p.separators ≠ [])
    (hClosing : closing.symbol = terminator)
    (hComing : s.coming =
      (leading ++ segments.flatMap Segment.written) ++ₛ .cons closing rest)
    (hRounds : (leading ++ segments.flatMap Segment.written).length < e.rounds) :
    ∃ id t, e.block opening (some separator) terminator wrap s = some (id, t) ∧
      s.Reaches rest t ∧ t.previous = closing ∧
      t.arena.IsTree
        (.node (.block (some separator) terminator) (segments.map Segment.tree)) id := by
  rw [List.length_append] at hRounds
  have hCount := hSegments.length_le
  have hTurns : segments.length < e.rounds := by omega
  have hBounded (p : Segment) (hMem : p ∈ segments) : p.separators.length ≤ e.rounds := by
    have hPart := Segment.length_separators_le hMem
    omega
  rw [Stream'.append_append_stream] at hComing
  have hReach := s.reaches_refl
  rw [hComing] at hReach
  obtain ⟨ids, u, hChildren, hEnds, hPrevious, hTrees⟩ :=
    exists_statementsFrom hDistinct hSegments hBetween hBounded hClosing hTurns hLeading
      (by omega) hReach []
  have hNode := reaches_alloc_of hEnds.coming (.block ids (some separator) terminator)
    (u.rangeFrom opening)
  refine ⟨_, _, ?_, hEnds.trans hNode, hPrevious, ⟨_, u.kind?_alloc_self _ _, rfl,
    hTrees.mono hNode.arena⟩⟩
  rw [block, hChildren]
  rfl

end Engine

namespace Sample

/-- Two formulas, with the commas behind them. -/
def crowdedFormulas : List (Expression × List Token) :=
  [(sumFormula, [formulaToken "," 5, formulaToken "," 6]), (signFormula, [formulaToken "," 10])]

/-- The session at the first token of `,,a+b,,-c!,)`. -/
def crowdedSession : Session :=
  (Session.ofSource formulaGrammar.lexicon ",,a+b,,-c!,)".toList).consume.2

/-- The formulas as statements that are wrapped. -/
def crowdedSegments : List Segment :=
  crowdedFormulas.map fun p =>
    ⟨p.1.tokens, .node .statement [p.1.tree crowdedSession.source], p.2⟩

theorem coming_crowdedSession : crowdedSession.coming =
    ([formulaToken "," 0, formulaToken "," 1] ++ crowdedSegments.flatMap Segment.written) ++ₛ
      .cons (formulaToken ")" 11) (Stream'.const (.empty .eof 12 ⟨1, 13⟩)) := by
  have hLexemes : formulaGrammar.lexicon.lexemes ",,a+b,,-c!,)".toList =
      ([formulaToken "," 0, formulaToken "," 1] ++ crowdedSegments.flatMap Segment.written ++
        [formulaToken ")" 11]).map (⟨·, []⟩) ++ [⟨.empty .eof 12 ⟨1, 13⟩, []⟩] := by
    decide +kernel
  rw [crowdedSession, coming_consume, coming_ofSource hLexemes]
  simp [Function.comp_def, Stream'.cons_append_stream, Stream'.append_append_stream]

theorem over_crowdedFormulas : ∀ p ∈ crowdedFormulas, p.1.Over formulaGrammar :=
  List.forall_mem_cons.mpr ⟨over_sumFormula, List.forall_mem_singleton.mpr over_signFormula⟩

/-- Commas in front of both formulas, between them and behind them leave a block of two. -/
theorem block_of_crowdedSegments :
    ∃ id t, (formulaGrammar.engine 20 20).block default (some (formulaToken "," 0).symbol)
        (formulaToken ")" 11).symbol true crowdedSession = some (id, t) ∧
      crowdedSession.Reaches (Stream'.const (.empty .eof 12 ⟨1, 13⟩)) t ∧
      t.previous = formulaToken ")" 11 ∧
      t.arena.IsTree (.node (.block (some (formulaToken "," 0).symbol)
        (formulaToken ")" 11).symbol) (crowdedSegments.map Segment.tree)) id := by
  have hReads : ∀ p ∈ crowdedFormulas, crowdedSession.ReadsAs
      ((formulaGrammar.engine 20 20).statement true)
      [(formulaToken "," 0).symbol, (formulaToken ")" 11).symbol] p.1.tokens
      (.node .statement [p.1.tree crowdedSession.source]) := by
    intro p hMem
    exact Expression.readsAs_statement isOrderly_formulaGrammar (over_crowdedFormulas p hMem)
      (by revert p; decide +kernel) (by decide +kernel) (by revert p; decide +kernel)
      (by revert p; decide +kernel) (by revert p; decide +kernel) true
  have hSegments : crowdedSession.ReadsSegments ((formulaGrammar.engine 20 20).statement true)
      (formulaToken "," 0).symbol (formulaToken ")" 11).symbol
      [(formulaToken "," 0).symbol, (formulaToken ")" 11).symbol, .eof] crowdedSegments :=
    Expression.readsSegments isOrderly_formulaGrammar
      (fun x => .node .statement [x.tree crowdedSession.source]) hReads over_crowdedFormulas
      (by decide +kernel) (by decide +kernel)
  exact Engine.block_of_segments (by decide +kernel) (by decide +kernel) hSegments
    (by decide +kernel) rfl coming_crowdedSession (by decide +kernel)

end Sample

end Precedence
