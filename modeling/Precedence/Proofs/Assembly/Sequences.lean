import Precedence.Proofs.Assembly.Basic
import Precedence.Proofs.Engine.Run

/-!
Sequences and blocks at the bench. A loop lays down what it consumes and what it parses, so behind
it the bench holds the nodes that it found, in order, and between them only tokens of the kinds that
the loop asks for.
-/
namespace Precedence

open Session Relation

/-- How a block ends: with its terminator, or where the input ends. -/
def IsClosing (terminator : Symbol) (closing : List Token) (s : Session) : Prop :=
  closing = [] ∧ s.coming.head.symbol = .eof ∧ terminator ≠ .eof ∨
    ∃ τ, closing = [τ] ∧ τ.symbol = terminator

/-- The parsers of an engine put one node on the bench, and name symbols by the table of a
grammar. -/
structure Engine.BuildsBy (e : Engine) (g : Grammar) : Prop where
  symbols : e.symbols = g.symbols
  expression {threshold : BindingPower} {s t : Session} {id : NodeId} {floor : Nat}
    (p : List Piece) : floor ≤ s.errorCount → e.expression threshold s = some (id, t) →
      g.Builds floor ⟨s, p⟩ ⟨t, p ++ [.node id]⟩
  statement {wrap : Bool} {s t : Session} {id : NodeId} {floor : Nat} (p : List Piece) :
    floor ≤ s.errorCount → e.statement wrap s = some (id, t) →
      g.Builds floor ⟨s, p⟩ ⟨t, p ++ [.node id]⟩

section

variable {g : Grammar} {e : Engine} {s t : Session} {id : NodeId} {floor : Nat}

open Grammar

namespace Grammar

theorem Builds.errorCount_le {b c : Bench} (h : g.Builds floor b c)
    (hFloor : floor ≤ b.session.errorCount) : floor ≤ c.session.errorCount :=
  Nat.le_trans hFloor (Builds.continues h).errorCount_le

theorem Builds.of_result {result : NodeId × Session} {b : Bench} {p : List Piece}
    (hBuilds : g.Builds floor b ⟨result.2, p ++ [.node result.1]⟩)
    (h : some result = some (id, t)) : g.Builds floor b ⟨t, p ++ [.node id]⟩ := by
  cases h
  exact hBuilds

section

variable (g : Grammar) (floor : Nat) (s : Session) (p : List Piece)

theorem builds_peeked : g.Builds floor ⟨s, p⟩ ⟨s.peeked, p⟩ := .single (.look s p)

theorem builds_consume : g.Builds floor ⟨s, p⟩ ⟨s.consume.2, p ++ [.token s.coming.head]⟩ :=
  .single (.consume s p)

/-- A fault about the next token, which is looked at for it. -/
theorem builds_fault {f : SyntaxFault}
    (hNext : s.coming.head.symbol = .invalid → ∃ found, f = .trailing found) :
    g.Builds floor ⟨s, p⟩ ⟨(s.peeked.fault g.symbols f s.coming.head.range).2, p⟩ := by
  have hFault : g.Act floor ⟨s.peeked, p⟩
      ⟨(s.peeked.fault g.symbols f s.peeked.coming.head.range).2, p⟩ :=
    .fault s.peeked p (by rwa [coming_peeked])
  rw [coming_peeked] at hFault
  exact (builds_peeked g floor s p).tail hFault

/-- An invalid node for the token consumed last, which has been reported by the lexer. -/
theorem builds_spare (hSilent : g.IsSilent s.source s.previous) :
    g.Builds floor ⟨s, p ++ [.token s.previous]⟩
      ⟨(s.invalidNode s.previous).2, p ++ [.node (s.invalidNode s.previous).1]⟩ := by
  have hPass : g.Act floor ⟨s, p ++ [s.previous].map .token⟩
      ⟨(s.alloc (.invalid s.previous.symbol) (s.rangeFrom s.previous.range)).2, p ++
        [.node (s.alloc (.invalid s.previous.symbol) (s.rangeFrom s.previous.range)).1]⟩ :=
    .pass s p (.inr hSilent)
  rw [rangeFrom_previous] at hPass
  exact .single hPass

end

theorem errorCount_le_peeked (hFloor : floor ≤ s.errorCount) : floor ≤ s.peeked.errorCount :=
  Nat.le_trans hFloor s.continues_peeked.errorCount_le

theorem errorCount_le_consume (hFloor : floor ≤ s.errorCount) : floor ≤ s.consume.2.errorCount :=
  Nat.le_trans hFloor s.continues_consume.errorCount_le

/-- The next token is laid on the bench if it is the one that is wanted. -/
theorem exists_builds_expect (g : Grammar) (floor : Nat) (s : Session) (p : List Piece)
    (wanted : Symbol) :
    ∃ closing : List Token, Piece.AreOf [wanted] (closing.map .token) ∧
      g.Builds floor ⟨s, p⟩ ⟨(s.expect g.symbols wanted).2, p ++ closing.map .token⟩ := by
  rw [Session.expect_eq]
  split
  · next hFound =>
    refine ⟨[s.coming.head], ?_, builds_consume g floor s p⟩
    exact (Piece.areOf_nil _).token (List.mem_singleton.mpr hFound)
  · refine ⟨[], Piece.areOf_nil _, ?_⟩
    rw [List.map_nil, List.append_nil]
    split
    · exact builds_peeked g floor s p
    · next hValid => exact builds_fault g floor s p fun hInvalid => absurd hInvalid hValid

end Grammar

/-! ### Sequences -/

/-- Tokens that are skipped lie on the bench. -/
theorem Session.exists_builds_synchronize (g : Grammar) (floor : Nat) {recovery : RecoverySet}
    {rounds : Nat} {found : Bool} (h : s.synchronize recovery rounds = some (found, t))
    (p : List Piece) :
    ∃ tokens : List Token, g.Builds floor ⟨s, p⟩ ⟨t, p ++ tokens.map .token⟩ := by
  induction rounds generalizing s p with
  | zero => cases h
  | succ rounds ih =>
      rw [synchronize_succ] at h
      split at h
      · cases h
        refine ⟨[], ?_⟩
        rw [List.map_nil, List.append_nil]
        exact builds_peeked g floor s p
      · split at h
        · cases h
          refine ⟨[], ?_⟩
          rw [List.map_nil, List.append_nil]
          exact builds_peeked g floor s p
        · obtain ⟨tokens, hBuilds⟩ := ih h (p ++ [.token s.coming.head])
          refine ⟨s.coming.head :: tokens, ?_⟩
          rw [List.append_assoc] at hBuilds
          exact (builds_consume g floor s p).trans hBuilds

namespace Engine

theorem exists_builds_skipSeparators {separator : Symbol} {rounds : Nat}
    (h : skipSeparators separator rounds s = some t) (p : List Piece) :
    ∃ tokens : List Token, Piece.AreOf [separator] (tokens.map .token) ∧
      g.Builds floor ⟨s, p⟩ ⟨t, p ++ tokens.map .token⟩ := by
  induction rounds generalizing s p with
  | zero => cases h
  | succ rounds ih =>
      rw [skipSeparators_succ] at h
      split at h
      · next hFound =>
        obtain ⟨tokens, hTokens, hBuilds⟩ := ih h (p ++ [.token s.coming.head])
        refine ⟨s.coming.head :: tokens, hTokens.token (List.mem_singleton.mpr hFound), ?_⟩
        rw [List.append_assoc] at hBuilds
        exact (builds_consume g floor s p).trans hBuilds
      · cases h
        refine ⟨[], Piece.areOf_nil _, ?_⟩
        rw [List.map_nil, List.append_nil]
        exact builds_peeked g floor s p

theorem exists_builds_skipBefore (g : Grammar) (floor : Nat) {separator : Option Symbol}
    (h : e.skipBefore separator s = some t) (p : List Piece) :
    ∃ tokens : List Token, Piece.AreOf separator.toList (tokens.map .token) ∧
      g.Builds floor ⟨s, p⟩ ⟨t, p ++ tokens.map .token⟩ := by
  cases separator with
  | none =>
      cases h
      refine ⟨[], Piece.areOf_nil _, ?_⟩
      rw [List.map_nil, List.append_nil]
  | some separator => exact exists_builds_skipSeparators h p

/-- Separated expressions lie on the bench with the separators and the terminator. -/
theorem exists_builds_separatedFrom (he : e.BuildsBy g) {separator terminator : Symbol}
    {power : BindingPower} {rounds : Nat} {items found : List NodeId}
    (hFloor : floor ≤ s.errorCount)
    (h : e.separatedFrom separator terminator power rounds items s = some (found, t))
    (p : List Piece) :
    ∃ pieces, Piece.AreOf [terminator, separator] pieces ∧
      found = items.reverse ++ Piece.nodes pieces ∧
        g.Builds floor ⟨s, p⟩ ⟨t, p ++ pieces⟩ := by
  induction rounds generalizing items s p with
  | zero => cases h
  | succ rounds ih =>
      rw [separatedFrom_succ, he.symbols] at h
      split at h
      · next hClosed =>
        cases h
        refine ⟨[.token s.coming.head], ?_, (List.append_nil _).symm, builds_consume g floor s p⟩
        exact (Piece.areOf_nil _).token (hClosed ▸ List.mem_cons_self)
      · split at h
        · next hEnd =>
          cases h
          refine ⟨[], Piece.areOf_nil _, (List.append_nil _).symm, ?_⟩
          rw [List.append_nil]
          exact builds_fault g floor s p fun hInvalid => by cases hEnd.symm.trans hInvalid
        · simp only [Option.bind_eq_some_iff, Prod.exists] at h
          obtain ⟨item, u, hItem, hRest⟩ := h
          have hBuilds := (builds_peeked g floor s p).trans
            (he.expression p (errorCount_le_peeked hFloor) hItem)
          have hReached := Builds.errorCount_le hBuilds hFloor
          split at hRest
          · next hFound =>
            obtain ⟨pieces, hPieces, hItems, hLater⟩ := ih (errorCount_le_consume hReached) hRest
              ((p ++ [.node item]) ++ [.token u.coming.head])
            refine ⟨.node item :: .token u.coming.head :: pieces, ?_, ?_, ?_⟩
            · exact (hPieces.token (hFound ▸ List.mem_cons_of_mem _ List.mem_cons_self)).node item
            · rw [hItems, List.reverse_cons, List.append_assoc]
              rfl
            · have hAll := (hBuilds.trans (builds_consume g floor u _)).trans hLater
              simpa only [List.append_assoc, List.cons_append, List.nil_append] using hAll
          · cases hRest
            obtain ⟨closing, hClosing, hLater⟩ :=
              exists_builds_expect g floor u.peeked (p ++ [.node item]) terminator
            refine ⟨.node item :: closing.map .token, ?_, ?_, ?_⟩
            · exact (hClosing.mono (by simp)).node item
            · simp
            · rw [List.append_assoc] at hLater
              exact (hBuilds.trans (builds_peeked g floor u _)).trans hLater

/-! ### Blocks -/

/-- The tokens that are passed over are reported by someone, and leave one node. -/
theorem builds_skipToBoundary {separator terminator : Symbol}
    (hReason : floor < s.errorCount ∨ s.coming.head.symbol = .invalid)
    (hSeparator : s.coming.head.symbol ≠ separator)
    (hTerminator : s.coming.head.symbol ≠ terminator) (hEnd : s.coming.head.symbol ≠ .eof)
    (h : e.skipToBoundary separator terminator s = some (id, t)) (p : List Piece) :
    g.Builds floor ⟨s, p⟩ ⟨t, p ++ [.node id]⟩ := by
  rw [skipToBoundary_eq] at h
  simp only [Option.bind_eq_some_iff, Prod.exists] at h
  obtain ⟨found, u, hSkipped, hNode⟩ := h
  cases hNode
  cases hRounds : e.rounds with
  | zero =>
      rw [hRounds] at hSkipped
      cases hSkipped
  | succ rounds =>
      rw [hRounds, synchronize_succ, coming_peeked, consume_peeked] at hSkipped
      have hOutside : ((RecoverySet.empty.insert separator).insert terminator).contains
          s.coming.head.symbol = false := by
        simp [RecoverySet.contains, RecoverySet.insert, RecoverySet.empty]
        split <;> simp_all
      rw [if_neg (by rw [hOutside]; decide), if_neg hEnd] at hSkipped
      obtain ⟨rest, hRest⟩ := exists_builds_synchronize g floor hSkipped
        (p ++ [.token s.coming.head])
      rw [List.append_assoc] at hRest
      have hBuilds := (builds_consume g floor s p).trans hRest
      have hContinues := Builds.continues hBuilds
      have hPass (first : Token) (hFirst : floor < u.errorCount ∨ g.IsSilent u.source first) :
          g.Act floor ⟨u, p ++ (first :: rest).map .token⟩
            ⟨(u.alloc (.invalid first.symbol) (u.rangeFrom first.range)).2, p ++
              [.node (u.alloc (.invalid first.symbol) (u.rangeFrom first.range)).1]⟩ :=
        .pass u p hFirst
      exact hBuilds.tail (hPass s.coming.head (hReason.imp
        (fun hErrors => Nat.lt_of_lt_of_le hErrors hContinues.errorCount_le) .inl))

/-- What is reported about the token behind a statement. -/
theorem builds_faultBoundary (he : e.BuildsBy g) (floor : Nat) (separator terminator : Symbol)
    (failed : Bool) (s : Session) (p : List Piece) :
    g.Builds floor ⟨s, p⟩ ⟨e.faultBoundary separator terminator failed s, p⟩ := by
  unfold faultBoundary
  rw [he.symbols]
  split
  · exact builds_peeked g floor s p
  · next hSilent =>
    exact builds_fault g floor s p fun hInvalid => absurd (.inr hInvalid) hSilent

theorem errorCount_faultBoundary (separator terminator : Symbol) {failed : Bool}
    (hFloor : floor ≤ s.errorCount) (hFailed : failed = true → floor < s.errorCount)
    (hValid : s.coming.head.symbol ≠ .invalid) :
    floor < (e.faultBoundary separator terminator failed s).errorCount := by
  unfold faultBoundary
  split
  · next hReason =>
    exact Nat.lt_of_lt_of_le (hFailed (hReason.resolve_right hValid))
      s.continues_peeked.errorCount_le
  · rw [errorCount_fault]
    exact Nat.lt_succ_of_le (errorCount_le_peeked hFloor)

/-- Behind a statement lies a separator, or a node for the tokens that are passed over, or
nothing. -/
theorem exists_builds_afterStatement (he : e.BuildsBy g) {separator terminator : Symbol}
    {failed : Bool} {skipped : Option NodeId} (hFloor : floor ≤ s.errorCount)
    (hFailed : failed = true → floor < s.errorCount)
    (h : e.afterStatement separator terminator failed s = some (skipped, t)) (p : List Piece) :
    ∃ pieces, Piece.AreOf [separator] pieces ∧ Piece.nodes pieces = skipped.toList ∧
      g.Builds floor ⟨s, p⟩ ⟨t, p ++ pieces⟩ := by
  rw [afterStatement_eq] at h
  have hFault := builds_faultBoundary he floor separator terminator failed s p
  split at h
  · next hFound =>
    cases h
    exact ⟨[.token s.coming.head], (Piece.areOf_nil _).token (List.mem_singleton.mpr hFound), rfl,
      builds_consume g floor s p⟩
  · next hSeparator =>
    split at h
    · cases h
      refine ⟨[], Piece.areOf_nil _, rfl, ?_⟩
      rw [List.append_nil]
      exact builds_peeked g floor s p
    · next hOther =>
      obtain ⟨hTerminator, hEnd⟩ := not_or.mp hOther
      split at h
      · cases h
        refine ⟨[], Piece.areOf_nil _, rfl, ?_⟩
        rw [List.append_nil]
        exact hFault
      · simp only [Option.bind_eq_some_iff, Prod.exists] at h
        obtain ⟨node, u, hSkipped, hNode⟩ := h
        cases hNode
        refine ⟨[.node node], (Piece.areOf_nil _).node node, rfl, hFault.trans ?_⟩
        have hHead : (e.faultBoundary separator terminator failed s).coming.head =
            s.coming.head := by rw [coming_faultBoundary]
        refine builds_skipToBoundary ?_ ?_ ?_ ?_ hSkipped p
        · rw [hHead]
          by_cases hInvalid : s.coming.head.symbol = .invalid
          · exact .inr hInvalid
          · exact .inl (errorCount_faultBoundary separator terminator hFloor hFailed hInvalid)
        all_goals rwa [hHead]

/-- The statements of a block lie on the bench with the separators between them, and behind them
the terminator, unless the input has ended. -/
theorem exists_builds_statementsFrom (he : e.BuildsBy g) {separator : Option Symbol}
    {terminator : Symbol} {wrap : Bool} {rounds : Nat} {found children : List NodeId}
    (hFloor : floor ≤ s.errorCount)
    (h : e.statementsFrom separator terminator wrap rounds found s = some (children, t))
    (p : List Piece) :
    ∃ body closing, Piece.AreOf separator.toList body ∧ IsClosing terminator closing t ∧
      children = found.reverse ++ Piece.nodes body ∧
        g.Builds floor ⟨s, p⟩ ⟨t, p ++ (body ++ closing.map .token)⟩ := by
  induction rounds generalizing found s p with
  | zero => cases h
  | succ rounds ih =>
      rw [statementsFrom_succ, he.symbols] at h
      simp only [Option.bind_eq_some_iff] at h
      obtain ⟨u, hBefore, h⟩ := h
      obtain ⟨before, hSeparators, hStart⟩ := exists_builds_skipBefore g floor
        hBefore p
      have hReached := Builds.errorCount_le hStart hFloor
      split at h
      · next hClosed =>
        cases h
        refine ⟨before.map .token, [u.coming.head], hSeparators, .inr ⟨_, rfl, hClosed⟩, ?_, ?_⟩
        · rw [Piece.nodes_map_token, List.append_nil]
        · rw [← List.append_assoc]
          exact hStart.trans (builds_consume g floor u _)
      · next hOpen =>
        split at h
        · next hEnd =>
          cases h
          refine ⟨before.map .token, [], hSeparators, .inl ⟨rfl, ?_, ?_⟩, ?_, ?_⟩
          · exact (congrArg (fun st => st.head.symbol) u.coming_peeked).trans hEnd
          · exact fun hSame => hOpen (hEnd.trans hSame.symm)
          · rw [Piece.nodes_map_token, List.append_nil]
          · rw [List.map_nil, List.append_nil]
            exact hStart.trans (builds_fault g floor u _ fun hInvalid => by
              cases hEnd.symm.trans hInvalid)
        · simp only [Option.bind_eq_some_iff, Prod.exists] at h
          obtain ⟨statement, v, hStatement, h⟩ := h
          have hLooked := errorCount_le_peeked hReached
          have hBuilds := (hStart.trans (builds_peeked g floor u _)).trans
            (he.statement _ hLooked hStatement)
          have hSoFar := Builds.errorCount_le hBuilds hFloor
          cases separator with
          | none =>
              obtain ⟨body, closing, hBody, hClosing, hChildren, hLater⟩ := ih hSoFar h
                (p ++ before.map .token ++ [.node statement])
              refine ⟨before.map .token ++ .node statement :: body, closing,
                hSeparators.append (hBody.node statement), hClosing, ?_, ?_⟩
              · simp [hChildren]
              · have hAll := hBuilds.trans hLater
                simpa only [List.append_assoc, List.cons_append, List.nil_append] using hAll
          | some boundary =>
              simp only [Option.bind_eq_some_iff, Prod.exists] at h
              obtain ⟨skipped, w, hAfter, h⟩ := h
              have hFailed : decide (u.peeked.errorCount < v.errorCount) = true →
                  floor < v.errorCount :=
                fun hMore => Nat.lt_of_le_of_lt hLooked (of_decide_eq_true hMore)
              obtain ⟨behind, hBehind, hNodes, hSkipped⟩ := exists_builds_afterStatement he hSoFar
                hFailed hAfter (p ++ before.map .token ++ [.node statement])
              obtain ⟨body, closing, hBody, hClosing, hChildren, hLater⟩ :=
                ih (Builds.errorCount_le hSkipped hSoFar) h
                  (p ++ before.map .token ++ [.node statement] ++ behind)
              refine ⟨before.map .token ++ .node statement :: (behind ++ body), closing,
                hSeparators.append ((hBehind.append hBody).node statement), hClosing, ?_, ?_⟩
              · cases skipped with
                | none => simp [hChildren, hNodes]
                | some node => simp [hChildren, hNodes]
              · have hAll := (hBuilds.trans hSkipped).trans hLater
                simpa only [List.append_assoc, List.cons_append, List.nil_append] using hAll

/-- A block lays down its statements and then takes them into its node with the opening. -/
theorem exists_builds_block (he : e.BuildsBy g) {opening : Token} {separator : Option Symbol}
    {terminator : Symbol} {wrap : Bool} (hOpening : opening.symbol ≠ .invalid)
    (hMarks : .invalid ∉ g.marks → .invalid ∉ terminator :: separator.toList)
    (hFloor : floor ≤ s.errorCount)
    (h : e.block opening.range separator terminator wrap s = some (id, t)) (p : List Piece) :
    ∃ u body closing, IsClosing terminator closing u ∧
      g.Builds floor ⟨s, p ++ [.token opening]⟩
        ⟨u, p ++ .token opening :: (body ++ closing.map .token)⟩ ∧
      g.Builds floor ⟨u, p ++ .token opening :: (body ++ closing.map .token)⟩
        ⟨t, p ++ [.node id]⟩ := by
  simp only [block, Option.bind_eq_bind, Option.bind_eq_some_iff, Prod.exists] at h
  obtain ⟨children, u, hChildren, hNode⟩ := h
  cases hNode
  obtain ⟨body, closing, hBody, hClosing, rfl, hBuilds⟩ :=
    exists_builds_statementsFrom he hFloor hChildren (p ++ [.token opening])
  rw [List.append_assoc, List.singleton_append] at hBuilds
  refine ⟨u, body, closing, hClosing, hBuilds, .single (.make u p ?_ rfl ?_ (.inl rfl))⟩
  · have hNodes : Piece.nodes (.token opening :: (body ++ closing.map .token)) =
        [].reverse ++ Piece.nodes body := by simp
    rw [hNodes]
    exact .children (.block _ separator terminator)
  · have hClosed : Piece.AreOf [terminator] (closing.map .token) := by
      rcases hClosing with ⟨rfl, -⟩ | ⟨τ, rfl, hSymbol⟩
      · exact Piece.areOf_nil _
      · exact (Piece.areOf_nil _).token (List.mem_singleton.mpr hSymbol)
    have hPieces : Piece.AreOf (terminator :: separator.toList) (body ++ closing.map .token) :=
      (hBody.mono (List.subset_cons_self _ _)).append (hClosed.mono (by simp))
    exact (means_of_areOf hPieces hMarks).token fun _ => hOpening

theorem builds_block (he : e.BuildsBy g) {opening : Token} {separator : Option Symbol}
    {terminator : Symbol} {wrap : Bool} (hOpening : opening.symbol ≠ .invalid)
    (hMarks : .invalid ∉ g.marks → .invalid ∉ terminator :: separator.toList)
    (hFloor : floor ≤ s.errorCount)
    (h : e.block opening.range separator terminator wrap s = some (id, t)) (p : List Piece) :
    g.Builds floor ⟨s, p ++ [.token opening]⟩ ⟨t, p ++ [.node id]⟩ := by
  obtain ⟨u, body, closing, -, hBody, hNode⟩ :=
    exists_builds_block he hOpening hMarks hFloor h p
  exact hBody.trans hNode

end Engine

end

end Precedence
