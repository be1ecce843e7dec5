import Precedence.Proofs.Separators.Expressions

/-!
Separated lists. They are read up to their closing token, with one separator between neighbours and
none or one behind the last item. A group reads its first item by itself and leaves the others to
the list, which starts behind the first separator; both pieces end the same way, so the items come
out as if the list had read them all, and only a single item without a separator makes no tuple.
-/
namespace Precedence

open Session

/-- What a group with a separator makes of its items: the item itself, or a group of it if it is to
be wrapped, where there is one and no separator; and otherwise a tuple of all of them. -/
def Segment.groupTree (wrapped : Bool) : List Segment → SyntaxTree
  | [⟨_, tree, []⟩] => if wrapped then .node .group [tree] else tree
  | segments => .node .tuple (segments.map Segment.tree)

/-- Behind an item stands its only separator, or the item is the last and its terminator is next. -/
theorem Session.ReadsSegments.separator_or_terminator {s₀ u : Session} {parse : Parse NodeId}
    {separator terminator : Symbol} {barred : List Symbol} {p : Segment} {segments : List Segment}
    {closing : Token} {rest : Stream' Token}
    (h : s₀.ReadsSegments parse separator terminator barred (p :: segments))
    (hBetween : ∀ q ∈ (p :: segments).dropLast, q.separators ≠ [])
    (hSingle : ∀ q ∈ p :: segments, q.separators.length ≤ 1)
    (hComing : u.coming =
      p.separators ++ₛ (segments.flatMap Segment.written ++ₛ .cons closing rest)) :
    (∃ token, token.symbol = separator ∧ p.separators = [token] ∧
      u.coming = .cons token (segments.flatMap Segment.written ++ₛ .cons closing rest)) ∨
    (p.separators = [] ∧ segments = [] ∧ u.coming = .cons closing rest) := by
  cases hRun : p.separators with
  | nil =>
      obtain rfl := eq_nil_of_separators hBetween hRun
      rw [hRun, List.flatMap_nil, Stream'.nil_append_stream, Stream'.nil_append_stream] at hComing
      exact .inr ⟨rfl, rfl, hComing⟩
  | cons token separators =>
      have hLength := hSingle p List.mem_cons_self
      rw [hRun, List.length_cons] at hLength
      obtain rfl : separators = [] := List.length_eq_zero_iff.mp (by omega)
      rw [hRun, Stream'.cons_append_stream, Stream'.nil_append_stream] at hComing
      refine .inl ⟨token, h.separators p List.mem_cons_self token ?_, rfl, hComing⟩
      rw [hRun]
      exact List.mem_cons_self

theorem Segment.groupTree_of_separators {p : Segment} (h : p.separators ≠ []) (wrapped : Bool)
    (segments : List Segment) :
    groupTree wrapped (p :: segments) = .node .tuple ((p :: segments).map tree) := by
  obtain ⟨tokens, tree, separators⟩ := p
  cases separators with
  | nil => exact absurd rfl h
  | cons => cases segments with
    | nil => rfl
    | cons => rfl

theorem Segment.groupTree_single {p : Segment} (h : p.separators = []) (wrapped : Bool) :
    groupTree wrapped [p] = if wrapped then .node .group [p.tree] else p.tree := by
  obtain ⟨tokens, tree, separators⟩ := p
  cases h
  rfl

namespace Engine

variable {e : Engine} {separator terminator : Symbol} {power : BindingPower} {s₀ s : Session}
  {segments : List Segment} {closing : Token} {rest : Stream' Token}

/-- The loop over separated expressions reads the items, and their terminator. -/
theorem exists_separatedFrom (hDistinct : separator ≠ terminator)
    (hItems : s₀.ReadsSegments (e.expression power) separator terminator [terminator, .eof]
      segments)
    (hBetween : ∀ p ∈ segments.dropLast, p.separators ≠ [])
    (hSingle : ∀ p ∈ segments, p.separators.length ≤ 1)
    (hClosing : closing.symbol = terminator) {turns : Nat} (hTurns : segments.length < turns)
    (hReach : s₀.Reaches (segments.flatMap Segment.written ++ₛ .cons closing rest) s)
    (found : List NodeId) :
    ∃ ids t, e.separatedFrom separator terminator power turns found s =
        some (found.reverse ++ ids, t) ∧
      s.Reaches rest t ∧ t.previous = closing ∧
      t.arena.AreTrees (segments.map Segment.tree) ids := by
  induction segments generalizing turns s found with
  | nil =>
      obtain ⟨turns, rfl⟩ := Nat.exists_eq_add_one.mpr (Nat.zero_lt_of_lt hTurns)
      have hComing := hReach.coming
      rw [List.flatMap_nil, Stream'.nil_append_stream] at hComing
      refine ⟨[], s.consume.2, ?_, reaches_consume_of hComing, previous_consume_of hComing, rfl⟩
      rw [separatedFrom_succ, hComing, Stream'.head_cons, if_pos hClosing, List.append_nil]
  | cons p segments ih =>
      obtain ⟨turns, rfl⟩ := Nat.exists_eq_add_one.mpr (Nat.zero_lt_of_lt hTurns)
      obtain ⟨hStart, id, u, hParse, hRead, hTree⟩ :=
        hItems.exists_read hBetween hClosing hReach
      simp only [List.mem_cons, List.not_mem_nil, or_false, not_or] at hStart
      rw [separatedFrom_succ, if_neg hStart.1, if_neg hStart.2, hParse, Option.bind_some]
      dsimp only
      rcases hItems.separator_or_terminator hBetween hSingle hRead.coming with
        ⟨token, hToken, -, hNext⟩ | ⟨-, rfl, hNext⟩
      · -- the list goes on behind the separator
        have hConsumed := reaches_consume_of hNext
        have hHere := hRead.trans hConsumed
        obtain ⟨ids, t, hRest, hEnds, hPrevious, hTrees⟩ := ih hItems.tail
          (fun q hMem => hBetween q (mem_dropLast_cons hMem))
          (fun q hMem => hSingle q (List.mem_cons_of_mem p hMem))
          (Nat.lt_of_succ_lt_succ hTurns) (hReach.trans hHere) (id :: found)
        have hGrows := hConsumed.arena.trans hEnds.arena
        refine ⟨id :: ids, t, ?_, hHere.trans hEnds, hPrevious,
          ⟨id, ids, rfl, hTree.mono hGrows, hTrees⟩⟩
        rw [hNext, Stream'.head_cons, if_pos hToken, hRest, List.reverse_cons, List.append_assoc,
          List.singleton_append]
      · -- no separator, so that was the last item
        have hClosed := reaches_consume_of hNext
        refine ⟨[id], u.consume.2, ?_, hRead.trans hClosed, previous_consume_of hNext,
          ⟨id, [], rfl, hTree.mono hClosed.arena, rfl⟩⟩
        rw [hNext, Stream'.head_cons, if_neg (hClosing ▸ hDistinct.symm),
          expect_peeked_of hNext e.symbols hClosing, List.reverse_cons]

/-- A group with a separator reads its items, the first of them by itself, and its terminator. -/
theorem exists_group {wrapped : Bool} {opening : Token} (hDistinct : separator ≠ terminator)
    (hItems : s₀.ReadsSegments (e.expression .lowest) separator terminator [terminator, .eof]
      segments)
    (hBetween : ∀ p ∈ segments.dropLast, p.separators ≠ [])
    (hSingle : ∀ p ∈ segments, p.separators.length ≤ 1)
    (hClosing : closing.symbol = terminator) (hTurns : segments.length ≤ e.rounds)
    (hReach : s₀.Reaches (segments.flatMap Segment.written ++ₛ .cons closing rest) s) :
    ∃ id t, e.group terminator (some separator) wrapped opening s = some (id, t) ∧
      s.Reaches rest t ∧ t.previous = closing ∧
      t.arena.IsTree (Segment.groupTree wrapped segments) id := by
  rw [group]
  cases segments with
  | nil =>
      have hComing := hReach.coming
      rw [List.flatMap_nil, Stream'.nil_append_stream] at hComing
      have hClosed := reaches_consume_of hComing
      have hNode :=
        reaches_alloc_of hClosed.coming (.tuple []) (s.consume.2.rangeFrom opening.range)
      refine ⟨_, _, ?_, hClosed.trans hNode, previous_consume_of hComing,
        ⟨_, kind?_alloc_self _ _ _, rfl, rfl⟩⟩
      rw [tupleOrGroup_eq, hComing, Stream'.head_cons, if_pos hClosing]
  | cons p segments =>
      obtain ⟨hStart, id, u, hParse, hRead, hTree⟩ :=
        hItems.exists_read hBetween hClosing hReach
      simp only [List.mem_cons, List.not_mem_nil, or_false, not_or] at hStart
      rw [tupleOrGroup_eq, if_neg hStart.1, hParse, Option.bind_some]
      dsimp only
      rcases hItems.separator_or_terminator hBetween hSingle hRead.coming with
        ⟨token, hToken, hRun, hNext⟩ | ⟨hRun, rfl, hNext⟩
      · have hConsumed := reaches_consume_of hNext
        have hHere := hRead.trans hConsumed
        obtain ⟨ids, v, hRest, hEnds, hPrevious, hTrees⟩ := exists_separatedFrom hDistinct
          hItems.tail (fun q hMem => hBetween q (mem_dropLast_cons hMem))
          (fun q hMem => hSingle q (List.mem_cons_of_mem p hMem)) hClosing hTurns
          (hReach.trans hHere) []
        have hNode :=
          reaches_alloc_of hEnds.coming (.tuple (id :: ids)) (v.rangeFrom opening.range)
        have hGrows := (hConsumed.arena.trans hEnds.arena).trans hNode.arena
        rw [Segment.groupTree_of_separators (by simp [hRun])]
        refine ⟨_, _, ?_, hHere.trans (hEnds.trans hNode), hPrevious,
          ⟨_, kind?_alloc_self _ _ _, rfl, id, ids, rfl, hTree.mono hGrows,
            hTrees.mono hNode.arena⟩⟩
        rw [hNext, Stream'.head_cons, if_pos hToken, separated, hRest]
        rfl
      · have hClosed := reaches_consume_of hNext
        have hPrevious := previous_consume_of hNext
        rw [Segment.groupTree_single hRun, hNext, Stream'.head_cons,
          if_neg (hClosing ▸ hDistinct.symm), closeGroup, expect_peeked_of hNext e.symbols hClosing]
        cases wrapped with
        | true =>
            have hNode :=
              reaches_alloc_of hClosed.coming (.group id) (u.consume.2.rangeFrom opening.range)
            exact ⟨_, _, rfl, hRead.trans (hClosed.trans hNode), hPrevious,
              ⟨_, kind?_alloc_self _ _ _, rfl, id, [], rfl,
                hTree.mono (hClosed.arena.trans hNode.arena), rfl⟩⟩
        | false =>
            have hRange := u.consume.2.arena.extends_setRange id
              (u.consume.2.rangeFrom opening.range)
            have hKept : u.consume.2.Reaches rest
                (u.consume.2.setRange id (u.consume.2.rangeFrom opening.range)) :=
              ⟨rfl, hClosed.coming, rfl, hRange⟩
            exact ⟨_, _, rfl, hRead.trans (hClosed.trans hKept), hPrevious,
              hTree.mono (hClosed.arena.trans hRange)⟩

/-- Separated lists are read exactly, with one separator between neighbours and at most one behind
the last item. Whatever parses the expressions: on any number of items, none of which starts with
the terminator or at the end of the input, a list consumes everything through its terminator,
reports nothing, and has one node for each item, which is its tree. So does a group with that
separator, which reads expressions of the lowest power, and it is a tuple of the items unless there
is a single one without a separator. -/
theorem lists_of_segments (hDistinct : separator ≠ terminator)
    (hItems : s.ReadsSegments (e.expression power) separator terminator [terminator, .eof] segments)
    (hBetween : ∀ p ∈ segments.dropLast, p.separators ≠ [])
    (hSingle : ∀ p ∈ segments, p.separators.length ≤ 1)
    (hClosing : closing.symbol = terminator)
    (hComing : s.coming = segments.flatMap Segment.written ++ₛ .cons closing rest)
    (hRounds : (segments.flatMap Segment.written).length < e.rounds) :
    (∃ ids t, e.separated separator terminator power s = some (ids, t) ∧ s.Reaches rest t ∧
      t.previous = closing ∧ t.arena.AreTrees (segments.map Segment.tree) ids) ∧
    (power = .lowest → ∀ wrapped opening,
      ∃ id t, e.group terminator (some separator) wrapped opening s = some (id, t) ∧
        s.Reaches rest t ∧ t.previous = closing ∧
        t.arena.IsTree (Segment.groupTree wrapped segments) id) := by
  have hTurns : segments.length < e.rounds := Nat.lt_of_le_of_lt hItems.length_le hRounds
  have hReach := s.reaches_refl
  rw [hComing] at hReach
  refine ⟨?_, ?_⟩
  · exact exists_separatedFrom hDistinct hItems hBetween hSingle hClosing hTurns hReach []
  · rintro rfl wrapped opening
    exact exists_group hDistinct hItems hBetween hSingle hClosing (Nat.le_of_lt hTurns) hReach

end Engine

namespace Sample

/-- Two formulas, each with a comma behind it. -/
def listedFormulas : List (Expression × List Token) :=
  [(sumFormula, [formulaToken "," 5]), (signFormula, [formulaToken "," 10])]

/-- The session at the first token of `a+b, -c!,)`, which stands behind two blanks. -/
def listedSession : Session :=
  (Session.ofSource formulaGrammar.lexicon "  a+b, -c!,)".toList).consume.2

/-- The formulas as items of a list. -/
def listedSegments : List Segment :=
  listedFormulas.map fun p => ⟨p.1.tokens, p.1.tree listedSession.source, p.2⟩

theorem coming_listedSession : listedSession.coming =
    listedSegments.flatMap Segment.written ++ₛ
      .cons (formulaToken ")" 11) (Stream'.const (.empty .eof 12 ⟨1, 13⟩)) := by
  have hLexemes : formulaGrammar.lexicon.lexemes "  a+b, -c!,)".toList =
      (listedSegments.flatMap Segment.written ++ [formulaToken ")" 11]).map (⟨·, []⟩) ++
        [⟨.empty .eof 12 ⟨1, 13⟩, []⟩] := by
    decide +kernel
  rw [listedSession, coming_consume, coming_ofSource hLexemes]
  simp [Function.comp_def, Stream'.append_append_stream, Stream'.cons_append_stream]

theorem over_listedFormulas : ∀ p ∈ listedFormulas, p.1.Over formulaGrammar :=
  List.forall_mem_cons.mpr ⟨over_sumFormula, List.forall_mem_singleton.mpr over_signFormula⟩

/-- Both formulas are items, and the comma behind the second changes nothing. -/
theorem lists_of_listedSegments :
    (∃ ids t, (formulaGrammar.engine 20 20).separated (formulaToken "," 5).symbol
        (formulaToken ")" 11).symbol .lowest listedSession = some (ids, t) ∧
      listedSession.Reaches (Stream'.const (.empty .eof 12 ⟨1, 13⟩)) t ∧
      t.previous = formulaToken ")" 11 ∧
      t.arena.AreTrees (listedSegments.map Segment.tree) ids) ∧
    ∃ id t, (formulaGrammar.engine 20 20).group (formulaToken ")" 11).symbol
        (some (formulaToken "," 5).symbol) true default listedSession = some (id, t) ∧
      listedSession.Reaches (Stream'.const (.empty .eof 12 ⟨1, 13⟩)) t ∧
      t.previous = formulaToken ")" 11 ∧
      t.arena.IsTree (.node .tuple (listedSegments.map Segment.tree)) id := by
  have hReads : ∀ p ∈ listedFormulas, listedSession.ReadsAs
      ((formulaGrammar.engine 20 20).expression .lowest)
      [(formulaToken "," 5).symbol, (formulaToken ")" 11).symbol] p.1.tokens
      (p.1.tree listedSession.source) := by
    intro p hMem
    exact Expression.readsAs_expression isOrderly_formulaGrammar (over_listedFormulas p hMem)
      (by revert p; decide +kernel) (by decide +kernel) (by revert p; decide +kernel)
      (by revert p; decide +kernel)
  have hItems : listedSession.ReadsSegments ((formulaGrammar.engine 20 20).expression .lowest)
      (formulaToken "," 5).symbol (formulaToken ")" 11).symbol
      [(formulaToken ")" 11).symbol, .eof] listedSegments :=
    Expression.readsSegments isOrderly_formulaGrammar
      (fun x => x.tree listedSession.source) hReads over_listedFormulas
      (by decide +kernel) (by decide +kernel)
  obtain ⟨hList, hGroup⟩ := Engine.lists_of_segments (by decide +kernel) hItems
    (by decide +kernel) (by decide +kernel) rfl coming_listedSession (by decide +kernel)
  exact ⟨hList, hGroup rfl true default⟩

end Sample

end Precedence
