import Precedence.Proofs.Likeness.Constructs

/-!
The engine of a grammar makes the same trees of sequences that are read alike: from what starts with
a token to whole statements, and by induction on the depth for whatever is nested.
-/
namespace Precedence

open Session

variable {g : Grammar} {e : Engine} {R : Stream' Word → Stream' Word → Prop} {s s' : Session}
  {token token' : Token}

namespace Engine

/-- What starts with tokens that are read alike. -/
theorem mirrors_parsePrefix (he : e.Parallels g R) {parselet : PrefixParselet}
    (hBuiltIn : parselet.isBuiltIn = true) (hOpens : IsSteady R ∨ parselet.opens = false)
    (h : R s.words s'.words) (hToken : token.word s.source = token'.word s'.source) :
    Mirrors (Agree R) (e.parsePrefix parselet token s) (e.parsePrefix parselet token' s') := by
  have hSteady (hOpening : parselet.opens = true) : IsSteady R :=
    hOpens.resolve_right (by simp [hOpening])
  cases parselet with
  | name => exact .some (.nameNode h hToken)
  | number separators => exact .some (agree_number separators h hToken)
  | boolean => exact .some (agree_boolean h hToken)
  | string escape => exact .some (agree_string he.toRunsBy escape h hToken)
  | operator power => exact mirrors_prefixOperator he h (congrArg Word.symbol hToken)
  | group closing separator wrapped => exact mirrors_group (hSteady rfl) he h
  | block separator terminator wrap => exact mirrors_block (hSteady rfl) he h
  | custom parse => cases hBuiltIn

/-- What goes on from operands that are the same tree. -/
theorem mirrors_parseInfix (hR : g.IsCourse R) (he : e.Parallels g R) {parselet : InfixParselet}
    (hBuiltIn : parselet.form.isBuiltIn = true) (hOpens : IsSteady R ∨ parselet.form.opens = false)
    {left left' : NodeId} (h : R s.words s'.words) (hLeft : s.arena.SameTree s'.arena left left')
    (hSymbol : token.symbol = token'.symbol) :
    Mirrors (Agree R) (e.parseInfix parselet left token s)
      (e.parseInfix parselet left' token' s') := by
  obtain ⟨power, form⟩ := parselet
  cases form with
  | postfixed =>
      refine .some (.alloc h rfl ?_ (.cons hLeft .nil))
      rw [hSymbol]
      rfl
  | binary associativity => exact mirrors_binaryOperator he h hLeft hSymbol
  | ternary second => exact mirrors_ternary hR he h hLeft
  | call closing separator =>
      exact mirrors_call (hOpens.resolve_right Bool.noConfusion) he h hLeft
  | lambda => exact mirrors_lambda he h hLeft
  | custom parse => cases hBuiltIn

end Engine

namespace Grammar

/-- An expression that starts at the end of the input misses an operand. -/
theorem not_hasOperands_of_parseExpression (hBuiltIn : g.hasBuiltInParselets = true)
    (he : e.RunsBy g) {threshold : BindingPower} {t : Session} {id : NodeId}
    (h : g.parseExpression e threshold s = some (id, t)) (hEnd : s.coming.head.symbol = .eof) :
    ¬t.HasOperands := by
  rw [parseExpression_eq] at h
  simp only [Option.bind_eq_some_iff, Prod.exists] at h
  obtain ⟨left, u, hStart, hRest⟩ := h
  rw [startExpression, if_pos hEnd] at hStart
  intro hOperands
  have hBefore := hOperands.of_continues
    (Run.continues (run_continueExpression hBuiltIn he hRest))
  have hMessage : u.diagnostics = (s.consume.2.report
      (SyntaxFault.expectedExpression.message e.symbols s.coming.head.range)).2.diagnostics :=
    congrArg (·.2.diagnostics) (Option.some.inj hStart).symm
  refine hBefore (SyntaxFault.expectedExpression.message e.symbols s.coming.head.range) ?_ rfl
  rw [hMessage]
  simp [report, Diagnostics.push, Diagnostics.toList]

section

variable (hBuiltIn : g.hasBuiltInParselets = true) (hR : g.IsCourse R)

include hBuiltIn

theorem mirrors_startExpression (he : e.Parallels g R)
    (hOpens : IsSteady R ∨ g.opens token.symbol = false) (h : R s.words s'.words)
    (hToken : token.word s.source = token'.word s'.source) :
    Mirrors (Agree R) (g.startExpression e token s) (g.startExpression e token' s') := by
  have hSymbol : token.symbol = token'.symbol := congrArg Word.symbol hToken
  unfold startExpression
  rw [hSymbol]
  refine .ite (fun _ => .some (.rejectedNode h hToken)) fun _ =>
    .ite (fun _ => .some (.invalidNode h hToken)) fun _ => ?_
  split
  · next parselet hParselet =>
    refine Engine.mirrors_parsePrefix he (isBuiltIn_of_prefixFor? hBuiltIn hParselet) ?_ h hToken
    exact hOpens.imp_right fun hClosed => opens_of_prefixFor? hParselet (hSymbol ▸ hClosed)
  · exact .some (.rejectedNode h hToken)

include hR

/-- Where the first sequence has ended, neither goes on. -/
theorem mirrors_continueExpression (he : e.Parallels g R) {threshold : BindingPower} {rounds : Nat}
    {left left' : NodeId} (h : R s.words s'.words)
    (hLeft : s.arena.SameTree s'.arena left left') :
    Mirrors (Agree R) (g.continueExpression e threshold rounds left s)
      (g.continueExpression e threshold rounds left' s') := by
  induction rounds generalizing left left' s s' with
  | zero => exact .none
  | succ rounds ih =>
      have hHere : Agree R (left, s.peeked) (left', s'.peeked) :=
        ⟨related_peeked h, hLeft.mono s.continues_peeked.arena s'.continues_peeked.arena⟩
      rw [continueExpression_succ, continueExpression_succ]
      rcases hR h with ⟨hHead, hTail, hOpens⟩ | ⟨hEnd, hPower, hPower'⟩
      · have hSymbol : s.coming.head.symbol = s'.coming.head.symbol := congrArg Word.symbol hHead
        rw [head_words, Token.symbol_word, hSymbol] at hOpens
        rw [hSymbol]
        refine .ite (fun _ => .some hHere) fun _ => ?_
        have hConsumed : Agree R (left, s.consume.2) (left', s'.consume.2) :=
          ⟨related_consume hTail, hLeft.mono s.continues_consume.arena s'.continues_consume.arena⟩
        split
        · exact .some hConsumed.fault
        · next parselet hParselet =>
          have hForm := isBuiltIn_of_infixFor? hBuiltIn hParselet
          have hOne : Mirrors (Agree R) (e.parseInfix parselet left s.coming.head s.consume.2)
              (e.parseInfix parselet left' s'.coming.head s'.consume.2) := by
            refine Engine.mirrors_parseInfix hR he hForm ?_ hConsumed.course hConsumed.tree hSymbol
            exact hOpens.imp_right fun hClosed => opens_of_infixFor? hParselet hClosed
          refine hOne.bind (fun hRest => ?_) fun hOperand => ih hOperand.course hOperand.tree
          exact Run.continues (run_continueExpression hBuiltIn he.toRunsBy hRest)
      · have hOver : s.coming.head.symbol = .eof := hEnd 0
        have hLowest : BindingPower.lowest ≤ threshold := Nat.zero_le threshold
        rw [head_words, Token.symbol_word] at hPower'
        rw [hOver, hPower, hPower', if_pos hLowest, if_pos hLowest]
        exact .some hHere

theorem mirrors_parseExpression (he : e.Parallels g R) {threshold : BindingPower}
    (h : R s.words s'.words) :
    Mirrors (Agree R) (g.parseExpression e threshold s) (g.parseExpression e threshold s') := by
  rcases hR h with ⟨hHead, hTail, hOpens⟩ | ⟨hEnd, -, -⟩
  · rw [parseExpression_eq, parseExpression_eq]
    have hStart : Mirrors (Agree R) (g.startExpression e s.coming.head s.consume.2)
        (g.startExpression e s'.coming.head s'.consume.2) := by
      refine mirrors_startExpression hBuiltIn he hOpens (related_consume hTail) ?_
      rw [source_consume, source_consume]
      exact hHead
    refine hStart.bind (fun hRest => ?_) fun hLeft =>
      mirrors_continueExpression hBuiltIn hR he hLeft.course hLeft.tree
    exact Run.continues (run_continueExpression hBuiltIn he.toRunsBy hRest)
  · exact .of_lacks fun r hMissing =>
      not_hasOperands_of_parseExpression hBuiltIn he.toRunsBy hMissing (hEnd 0)

theorem mirrors_parseStatement (he : e.Parallels g R) {wrap : Bool} (h : R s.words s'.words) :
    Mirrors (Agree R) (g.parseStatement e wrap s) (g.parseStatement e wrap s') := by
  rw [parseStatement_eq, parseStatement_eq, statementFor?_eq_none hBuiltIn,
    statementFor?_eq_none hBuiltIn]
  have hExpression : Mirrors (Agree R) (g.parseExpression e .lowest s.peeked)
      (g.parseExpression e .lowest s'.peeked) :=
    mirrors_parseExpression hBuiltIn hR he (related_peeked h)
  refine hExpression.bind (fun {r v} hNode => ?_) fun hInner => ?_
  · split at hNode
    · cases hNode
      exact r.2.continues_alloc _ _
    · cases hNode
      exact .refl r.2
  · exact .ite (fun _ => .some (.alloc hInner.course rfl rfl (.cons hInner.tree .nil))) fun _ =>
      .some hInner

/-- The engine of a grammar makes the same trees of related sequences. -/
theorem parallels_engine (rounds depth : Nat) : (g.engine rounds depth).Parallels g R := by
  induction depth with
  | zero =>
      refine ⟨runsBy_engine hBuiltIn rounds 0, fun _ => .none, fun _ => .none, fun h => ?_⟩
      cases h
  | succ depth ih =>
      exact ⟨runsBy_engine hBuiltIn rounds (depth + 1), mirrors_parseExpression hBuiltIn hR ih,
        mirrors_parseStatement hBuiltIn hR ih,
        not_hasOperands_of_parseExpression hBuiltIn ih.toRunsBy⟩

end

end Grammar

end Precedence
