import Precedence.Proofs.Engine.Run
import Precedence.Proofs.Expression.RoundTrip
import Precedence.Proofs.Session.Vigilance

/-!
What is parsed without a report is the tree that precedence asks for. The loop over operators keeps
an invariant: the tree parsed so far is one that precedence asks for, its left spine is above the
threshold, and nothing on its right spine would have taken in the next token. So the next operator
may have it as its operand, whatever the operator does on its right.
-/
namespace Precedence

open Session

/-- Whether the parselet is a name, an operator or a group that leaves a node. -/
def PrefixParselet.isOperand (symbol : Symbol) : PrefixParselet → Bool
  | .name => symbol == .name
  | parselet => parselet.isOperator

/-- Whether the construct is an operator between, or behind, operands. -/
def InfixForm.isOperator : InfixForm → Bool
  | .lambda | .custom _ => false
  | _ => true

namespace Grammar

/-- Whether a grammar has names, operators, groups and calls, and nothing else. -/
def hasOperatorsAlone (g : Grammar) : Bool :=
  g.prefixes.all (fun entry => entry.2.isOperand entry.1) &&
    g.infixes.all (·.2.form.isOperator) && g.statements.isEmpty

section

variable {g : Grammar} (hg : g.hasOperatorsAlone = true)

include hg

theorem isOperand_of_prefixFor? {symbol : Symbol} {parselet : PrefixParselet}
    (h : g.prefixFor? symbol = some parselet) : parselet.isOperand symbol = true := by
  simp only [hasOperatorsAlone, Bool.and_eq_true, List.all_eq_true] at hg
  exact hg.1.1 _ (mem_of_prefixFor? h)

theorem isOperator_of_infixFor? {symbol : Symbol} {parselet : InfixParselet}
    (h : g.infixFor? symbol = some parselet) : parselet.form.isOperator = true := by
  simp only [hasOperatorsAlone, Bool.and_eq_true, List.all_eq_true] at hg
  exact hg.1.2 _ (mem_of_infixFor? h)

theorem hasBuiltInParselets_of_operators : g.hasBuiltInParselets = true := by
  simp only [hasOperatorsAlone, hasBuiltInParselets, Bool.and_eq_true, List.all_eq_true] at hg ⊢
  obtain ⟨⟨hPrefixes, hInfixes⟩, hStatements⟩ := hg
  refine ⟨⟨fun entry hMem => ?_, fun entry hMem => ?_⟩, hStatements⟩
  · have hOperand := hPrefixes entry hMem
    cases hParselet : entry.2 with
    | custom parse =>
        simp [hParselet, PrefixParselet.isOperand, PrefixParselet.isOperator] at hOperand
    | _ => rfl
  · have hOperator := hInfixes entry hMem
    cases hForm : entry.2.form with
    | custom parse => simp [hForm, InfixForm.isOperator] at hOperator
    | _ => rfl

end

/-- A tree accounts for what was done between two sessions, of which the node was the outcome: its
tokens were consumed, and it is the tree that precedence asks for between the threshold and the
next token. -/
structure Derives (g : Grammar) (threshold : BindingPower) (s t : Session) (id : NodeId)
    (x : Expression) : Prop where
  isAt : x.IsAt t.arena t.source id
  coming : s.coming = x.tokens ++ₛ t.coming
  isOver : x.Over g
  correct : x.IsCorrect g
  above : x.IsAbove g threshold
  stops : x.StopsAt g (g.power t.coming.head.symbol)

/-- Arguments account for the tokens between two sessions up to a terminator, and for the nodes that
were the outcome. -/
structure DerivesArguments (g : Grammar) (separator : Symbol) (closing : Token) (s t : Session)
    (ids : List NodeId) (xs : Arguments) : Prop where
  areAt : xs.AreAt t.arena t.source ids
  coming : s.coming = xs.tokens ++ₛ .cons closing t.coming
  isOver : xs.Over g separator
  correct : xs.AreCorrect g

end Grammar

/-- The parsers of an engine derive a tree wherever they report nothing, and stop in front of a
token that does not bind more tightly than the threshold. -/
structure Engine.IsSound (e : Engine) (g : Grammar) : Prop extends e.RunsBy g where
  sound {threshold : BindingPower} {s t : Session} {id : NodeId} :
    e.expression threshold s = some (id, t) → s.Quiet t →
      ∃ x, g.Derives threshold s t id x ∧ g.power t.coming.head.symbol ≤ threshold

namespace Engine.IsSound

variable {e : Engine} {g : Grammar} (he : e.IsSound g) {s t : Session} {id : NodeId}
  {threshold : BindingPower}

open Grammar

/-! ### What starts with a token -/

theorem derives_nameNode (hName : g.prefixFor? s.coming.head.symbol = some .name)
    (hSymbol : s.coming.head.symbol = .name)
    (h : some (s.consume.2.nameNode s.coming.head) = some (id, t)) :
    ∃ x, g.Derives threshold s t id x := by
  cases h
  refine ⟨.name s.coming.head, s.consume.2.isAt_nameNode _, ?_, ⟨hSymbol, hSymbol ▸ hName⟩, trivial,
    List.forall_mem_nil _, List.forall_mem_nil _⟩
  exact s.coming_eq_cons

include he

theorem exists_derives {u : Session} (hBefore : g.Run s u)
    (h : e.expression threshold u = some (id, t)) (hQuiet : s.Quiet t) :
    ∃ x, g.Derives threshold u t id x ∧ g.power t.coming.head.symbol ≤ threshold :=
  he.sound h (Run.split hBefore (he.run_expression h) hQuiet).2

theorem derives_prefixOperator {power : BindingPower}
    (hOp : g.prefixFor? s.coming.head.symbol = some (.operator power)) (hQuiet : s.Quiet t)
    (h : e.prefixOperator power s.coming.head s.consume.2 = some (id, t)) :
    ∃ x, g.Derives threshold s t id x := by
  simp only [prefixOperator, Option.bind_eq_bind, Option.bind_eq_some_iff, Prod.exists] at h
  obtain ⟨y, u, hOperand, hNode⟩ := h
  obtain ⟨hReach, hKind, hSame⟩ := reaches_of_alloc hNode
  obtain ⟨x, hx, hNext⟩ := he.exists_derives (run_consume g s) hOperand (hQuiet.of_same hSame)
  rw [← operandPower_of_prefixFor? hOp] at hx hNext
  rw [← hReach.coming] at hNext
  refine ⟨.prefixed s.coming.head x, ⟨y, hKind, hReach.isAt hx.isAt⟩, ?_, ⟨⟨power, hOp⟩, hx.isOver⟩,
    ⟨hx.above, hx.correct⟩, List.forall_mem_nil _, List.forall_mem_cons.mpr ⟨hNext, ?_⟩⟩
  · rw [s.coming_eq_cons, hx.coming, hReach.coming]
    rfl
  · rw [hReach.coming]
    exact hx.stops

theorem derives_enclosed {closing : Symbol}
    (hOpening : g.prefixFor? s.coming.head.symbol = some (.group closing none true))
    (hQuiet : s.Quiet t)
    (h : e.enclosed closing true s.coming.head s.consume.2 = some (id, t)) :
    ∃ x, g.Derives threshold s t id x := by
  simp only [enclosed, closeGroup_wrapped, he.symbols, Option.bind_eq_bind,
    Option.bind_eq_some_iff, Prod.exists] at h
  obtain ⟨y, u, hInner, hNode⟩ := h
  obtain ⟨hReach, hKind, hSame⟩ := reaches_of_alloc hNode
  have hRun := (run_consume g s).trans (he.run_expression hInner)
  obtain ⟨hBefore, hExpected⟩ := Run.split hRun (run_expect g u closing) (hQuiet.of_same hSame)
  obtain ⟨rfl, hClosed⟩ := expect_of_quiet hExpected
  rw [hClosed] at hReach
  obtain ⟨x, hx, -⟩ := he.exists_derives (run_consume g s) hInner hBefore
  refine ⟨.group s.coming.head x u.coming.head, ⟨y, hKind, ?_⟩, ?_, ⟨hOpening, hx.isOver⟩,
    hx.correct, List.forall_mem_nil _, List.forall_mem_nil _⟩
  · exact hReach.isAt (u.reaches_consume.isAt hx.isAt)
  · rw [s.coming_eq_cons, hx.coming, hReach.coming, u.coming_eq_cons]
    simp [Expression.tokens, Stream'.cons_append_stream, Stream'.append_append_stream]

/-! ### Arguments -/

theorem derivesArguments_separatedFrom {separator terminator : Symbol} {rounds : Nat}
    {items found : List NodeId} (hQuiet : s.Quiet t)
    (h : e.separatedFrom separator terminator .lowest rounds items s = some (found, t)) :
    ∃ xs ids closing, found = items.reverse ++ ids ∧ closing.symbol = terminator ∧
      g.DerivesArguments separator closing s t ids xs := by
  induction rounds generalizing items s with
  | zero => cases h
  | succ rounds ih =>
      have hPeek := run_peeked g s
      rw [Engine.separatedFrom_succ, he.symbols] at h
      split at h
      · next hClosed =>
        cases h
        exact ⟨.none, [], s.coming.head, (List.append_nil _).symm, hClosed, rfl, s.coming_eq_cons,
          trivial, trivial⟩
      · split at h
        · cases h
          exact absurd hQuiet.same (s.continues_peeked.diagnostics_report_ne _)
        · simp only [Option.bind_eq_some_iff, Prod.exists] at h
          obtain ⟨item, u, hItem, h⟩ := h
          have hRun := hPeek.trans (he.run_expression hItem)
          split at h
          · next hSeparator =>
            have hRest := run_separatedFrom he.toRunsBy h
            obtain ⟨hBefore, hQuiet⟩ := Run.split hRun ((run_consume g u).trans hRest) hQuiet
            obtain ⟨-, hQuiet⟩ := Run.split (run_consume g u) hRest hQuiet
            obtain ⟨x, hx, -⟩ := he.exists_derives hPeek hItem hBefore
            obtain ⟨xs, ids, closing, rfl, hClosing, hxs⟩ := ih hQuiet h
            have hLater := Run.continues ((run_consume g u).trans hRest)
            refine ⟨.more x u.coming.head xs, item :: ids, closing, by simp, hClosing,
              ⟨item, ids, rfl, hLater.isAt hx.isAt, hxs.areAt⟩, ?_,
              ⟨hSeparator, hx.isOver, hxs.isOver⟩, hx.correct, hxs.correct⟩
            rw [← coming_peeked, hx.coming, u.coming_eq_cons, hxs.coming]
            simp [Arguments.tokens, Stream'.cons_append_stream, Stream'.append_append_stream]
          · cases h
            have hLast := (run_peeked g u).trans (run_expect g u.peeked terminator)
            obtain ⟨hBefore, hQuiet⟩ := Run.split hRun hLast hQuiet
            obtain ⟨-, hExpected⟩ :=
              Run.split (run_peeked g u) (run_expect g u.peeked terminator) hQuiet
            obtain ⟨hClosing, hFound⟩ := expect_of_quiet hExpected
            obtain ⟨x, hx, -⟩ := he.exists_derives hPeek hItem hBefore
            rw [coming_peeked] at hClosing
            refine ⟨.last x, [item], u.coming.head, List.reverse_cons, hClosing,
              ⟨item, rfl, (Run.continues hLast).isAt hx.isAt⟩, ?_, hx.isOver, hx.correct⟩
            rw [← coming_peeked, hx.coming, hFound, consume_peeked, Arguments.tokens,
              ← coming_eq_cons]

/-! ### What goes on from an operand -/

section

variable {s₀ : Session} {left : NodeId} {x : Expression}
  (hLeft : g.Derives threshold s₀ s left x) (hAbove : threshold < g.power s.coming.head.symbol)

include hLeft hAbove

omit he in
theorem derives_postfixOperator (hForm : g.formFor? s.coming.head.symbol = some .postfixed)
    (h : some (postfixOperator left s.coming.head s.consume.2) = some (id, t)) :
    ∃ y, g.Derives threshold s₀ t id y := by
  obtain ⟨hReach, hKind, -⟩ := reaches_of_alloc h
  refine ⟨.postfixed x s.coming.head,
    ⟨left, hKind, hReach.isAt (s.reaches_consume.isAt hLeft.isAt)⟩, ?_, ⟨hForm, hLeft.isOver⟩,
    ⟨hLeft.stops, hLeft.correct⟩, List.forall_mem_cons.mpr ⟨hAbove, hLeft.above⟩,
    List.forall_mem_nil _⟩
  rw [hLeft.coming, s.coming_eq_cons, hReach.coming]
  simp [Expression.tokens, Stream'.cons_append_stream, Stream'.append_append_stream]

theorem derives_binaryOperator {associativity : Associativity}
    (hForm : g.formFor? s.coming.head.symbol = some (.binary associativity)) (hQuiet : s.Quiet t)
    (h : e.binaryOperator associativity (g.power s.coming.head.symbol) left s.coming.head
      s.consume.2 = some (id, t)) :
    ∃ y, g.Derives threshold s₀ t id y := by
  simp only [binaryOperator, Option.bind_eq_bind, Option.bind_eq_some_iff, Prod.exists] at h
  obtain ⟨z, u, hRight, hNode⟩ := h
  obtain ⟨hReach, hKind, hSame⟩ := reaches_of_alloc hNode
  have hRun := (run_consume g s).trans (he.run_expression hRight)
  obtain ⟨y, hy, hNext⟩ := he.exists_derives (run_consume g s) hRight (hQuiet.of_same hSame)
  have hThreshold : g.threshold s.coming.head.symbol =
      associativity.threshold (g.power s.coming.head.symbol) := threshold_of_formFor? hForm
  rw [← hThreshold] at hy hNext
  rw [← hReach.coming] at hNext
  refine ⟨.binary x s.coming.head y,
    ⟨left, z, hKind, hReach.isAt ((Run.continues hRun).isAt hLeft.isAt), hReach.isAt hy.isAt⟩, ?_,
    ⟨⟨associativity, hForm⟩, hLeft.isOver, hy.isOver⟩,
    ⟨hLeft.stops, hy.above, hLeft.correct, hy.correct⟩,
    List.forall_mem_cons.mpr ⟨hAbove, hLeft.above⟩, List.forall_mem_cons.mpr ⟨hNext, ?_⟩⟩
  · rw [hLeft.coming, s.coming_eq_cons, hy.coming, hReach.coming]
    simp [Expression.tokens, Stream'.cons_append_stream, Stream'.append_append_stream]
  · rw [hReach.coming]
    exact hy.stops

theorem derives_ternary {second : Symbol}
    (hForm : g.formFor? s.coming.head.symbol = some (.ternary second)) (hQuiet : s.Quiet t)
    (h : e.ternary second (g.power s.coming.head.symbol) left s.consume.2 = some (id, t)) :
    ∃ y, g.Derives threshold s₀ t id y := by
  simp only [ternary, he.symbols, Option.bind_eq_bind, Option.bind_eq_some_iff, Prod.exists] at h
  obtain ⟨z, u, hThen, z', v, hElse, hNode⟩ := h
  obtain ⟨hReach, hKind, hSame⟩ := reaches_of_alloc hNode
  have hToThen := (run_consume g s).trans (he.run_expression hThen)
  have hToElse := (run_expect g u second).trans (he.run_expression hElse)
  obtain ⟨hQuietThen, hQuietElse⟩ := Run.split hToThen hToElse (hQuiet.of_same hSame)
  have hExpected := (Run.split (run_expect g u second) (he.run_expression hElse) hQuietElse).1
  obtain ⟨y, hy, -⟩ := he.exists_derives (run_consume g s) hThen hQuietThen
  obtain ⟨y', hy', hNext⟩ := he.exists_derives (run_expect g u second) hElse hQuietElse
  obtain ⟨rfl, hFound⟩ := expect_of_quiet hExpected
  have hThreshold : g.threshold s.coming.head.symbol = (g.power s.coming.head.symbol).below :=
    threshold_of_formFor? hForm
  rw [← hThreshold] at hy' hNext
  rw [← hReach.coming] at hNext
  refine ⟨.ternary x s.coming.head y u.coming.head y',
    ⟨left, z, z', hKind, ?_, ?_, hReach.isAt hy'.isAt⟩, ?_,
    ⟨hForm, hLeft.isOver, hy.isOver, hy'.isOver⟩,
    ⟨hLeft.stops, hy'.above, hLeft.correct, hy.correct, hy'.correct⟩,
    List.forall_mem_cons.mpr ⟨hAbove, hLeft.above⟩, List.forall_mem_cons.mpr ⟨hNext, ?_⟩⟩
  · exact hReach.isAt ((Run.continues (hToThen.trans hToElse)).isAt hLeft.isAt)
  · exact hReach.isAt ((Run.continues hToElse).isAt hy.isAt)
  · rw [hLeft.coming, s.coming_eq_cons, hy.coming, u.coming_eq_cons, ← hFound, hy'.coming,
      hReach.coming]
    simp [Expression.tokens, Stream'.cons_append_stream, Stream'.append_append_stream]
  · rw [hReach.coming]
    exact hy'.stops

theorem derives_call {closing separator : Symbol}
    (hForm : g.formFor? s.coming.head.symbol = some (.call closing separator)) (hQuiet : s.Quiet t)
    (h : e.call closing separator left s.consume.2 = some (id, t)) :
    ∃ y, g.Derives threshold s₀ t id y := by
  simp only [call, separated, Option.bind_eq_bind, Option.bind_eq_some_iff, Prod.exists] at h
  obtain ⟨ids, u, hArgs, hNode⟩ := h
  obtain ⟨hReach, hKind, hSame⟩ := reaches_of_alloc hNode
  have hRest := run_separatedFrom he.toRunsBy hArgs
  obtain ⟨-, hQuiet⟩ := Run.split (run_consume g s) hRest (hQuiet.of_same hSame)
  obtain ⟨xs, ids, closing, rfl, rfl, hxs⟩ := he.derivesArguments_separatedFrom hQuiet hArgs
  refine ⟨.call x s.coming.head xs closing,
    ⟨left, ids, hKind, ?_, hReach.areAt hxs.areAt⟩, ?_,
    ⟨⟨separator, hForm, hxs.isOver⟩, hLeft.isOver⟩,
    ⟨hLeft.stops, hLeft.correct, hxs.correct⟩, List.forall_mem_cons.mpr ⟨hAbove, hLeft.above⟩,
    List.forall_mem_nil _⟩
  · exact hReach.isAt ((Run.continues ((run_consume g s).trans hRest)).isAt hLeft.isAt)
  · rw [hLeft.coming, s.coming_eq_cons, hxs.coming, hReach.coming]
    simp [Expression.tokens, Stream'.cons_append_stream, Stream'.append_append_stream]

end

/-! ### The loop over operators -/

section

variable (hg : g.hasOperatorsAlone = true)

include hg

theorem derives_parsePrefix {parselet : PrefixParselet}
    (hParselet : g.prefixFor? s.coming.head.symbol = some parselet) (hQuiet : s.Quiet t)
    (h : e.parsePrefix parselet s.coming.head s.consume.2 = some (id, t)) :
    ∃ x, g.Derives threshold s t id x := by
  have hOperand := isOperand_of_prefixFor? hg hParselet
  cases parselet with
  | name => exact derives_nameNode hParselet (beq_iff_eq.mp hOperand) h
  | operator power => exact he.derives_prefixOperator hParselet hQuiet h
  | group closing separator wrapped =>
      cases separator with
      | some separator => cases hOperand
      | none =>
          cases wrapped with
          | false => cases hOperand
          | true => exact he.derives_enclosed hParselet hQuiet h
  | number | boolean | string | block | custom => cases hOperand

theorem derives_startExpression (hQuiet : s.Quiet t)
    (h : g.startExpression e s.coming.head s.consume.2 = some (id, t)) :
    ∃ x, g.Derives threshold s t id x := by
  have hStart : g.Run s.consume.2 t := by
    rw [← s.previous_consume] at h
    exact run_startExpression (hasBuiltInParselets_of_operators hg) he.toRunsBy h
  have hConsumed := (Run.split (run_consume g s) hStart hQuiet).1.same
  -- a token that starts nothing would have been reported
  have hReported (node : NodeId × Session) {m : Message}
      (hNode : s.consume.2.rejectedNode s.coming.head m = node) (hSame : some node = some (id, t)) :
      False := by
    subst hNode
    cases hSame
    exact s.continues_consume.diagnostics_report_ne m hQuiet.same
  unfold startExpression at h
  split at h
  · exact (hReported _ rfl h).elim
  · split at h
    · next hInvalid =>
      rw [diagnostics_consume] at hConsumed
      exact absurd hInvalid (hQuiet.vigilant.head_ne hConsumed)
    · split at h
      · next parselet hParselet => exact he.derives_parsePrefix hg hParselet hQuiet h
      · exact (hReported _ rfl h).elim

theorem derives_parseInfix {s₀ : Session} {left : NodeId} {x : Expression}
    {parselet : InfixParselet} (hLeft : g.Derives threshold s₀ s left x)
    (hAbove : threshold < g.power s.coming.head.symbol)
    (hParselet : g.infixFor? s.coming.head.symbol = some parselet) (hQuiet : s.Quiet t)
    (h : e.parseInfix parselet left s.coming.head s.consume.2 = some (id, t)) :
    ∃ y, g.Derives threshold s₀ t id y := by
  have hOperator := isOperator_of_infixFor? hg hParselet
  have hForm := formFor?_of_infixFor? hParselet
  have hPower := power_of_infixFor? hParselet
  obtain ⟨power, form⟩ := parselet
  dsimp only at hPower
  subst hPower
  cases form with
  | postfixed => exact derives_postfixOperator hLeft hAbove hForm h
  | binary associativity => exact he.derives_binaryOperator hLeft hAbove hForm hQuiet h
  | ternary second => exact he.derives_ternary hLeft hAbove hForm hQuiet h
  | call closing separator => exact he.derives_call hLeft hAbove hForm hQuiet h
  | lambda | custom => cases hOperator

/-- Each turn of the loop makes the tree parsed so far the left operand of the next operator. -/
theorem derives_continueExpression {rounds : Nat} {s₀ : Session} {left : NodeId} {x : Expression}
    (hLeft : g.Derives threshold s₀ s left x) (hQuiet : s.Quiet t)
    (h : g.continueExpression e threshold rounds left s = some (id, t)) :
    ∃ y, g.Derives threshold s₀ t id y ∧ g.power t.coming.head.symbol ≤ threshold := by
  induction rounds generalizing s left x with
  | zero => cases h
  | succ rounds ih =>
      rw [continueExpression_succ] at h
      split at h
      · next hNext =>
        cases h
        have hReach := s.reaches_peeked
        refine ⟨x, ⟨hReach.isAt hLeft.isAt, ?_, hLeft.isOver, hLeft.correct, hLeft.above, ?_⟩, ?_⟩
        · rw [hReach.coming]
          exact hLeft.coming
        · rw [hReach.coming]
          exact hLeft.stops
        · rw [hReach.coming]
          exact hNext
      · next hAbove =>
        split at h
        · next hNone =>
          rw [power_of_infixFor?_eq_none hNone] at hAbove
          exact absurd (Nat.zero_le threshold) hAbove
        · next parselet hParselet =>
          simp only [Option.bind_eq_some_iff, Prod.exists] at h
          obtain ⟨operand, u, hOperand, hRest⟩ := h
          have hBuiltIn := hasBuiltInParselets_of_operators hg
          have hOne := (run_consume g s).trans
            (run_parseInfix he.toRunsBy (isBuiltIn_of_infixFor? hBuiltIn hParselet) hOperand)
          have hOthers := run_continueExpression hBuiltIn he.toRunsBy hRest
          obtain ⟨hQuietOne, hQuietOthers⟩ := Run.split hOne hOthers hQuiet
          obtain ⟨y, hy⟩ := he.derives_parseInfix hg hLeft (Nat.lt_of_not_le hAbove) hParselet
            hQuietOne hOperand
          exact ih hy hQuietOthers hRest

theorem derives_parseExpression (hQuiet : s.Quiet t)
    (h : g.parseExpression e threshold s = some (id, t)) :
    ∃ x, g.Derives threshold s t id x ∧ g.power t.coming.head.symbol ≤ threshold := by
  rw [parseExpression_eq] at h
  simp only [Option.bind_eq_some_iff, Prod.exists] at h
  obtain ⟨left, u, hStart, hRest⟩ := h
  have hBuiltIn := hasBuiltInParselets_of_operators hg
  have hFirst : g.Run s u := by
    have hStart' := hStart
    rw [← s.previous_consume] at hStart'
    exact (run_consume g s).trans (run_startExpression hBuiltIn he.toRunsBy hStart')
  have hOthers := run_continueExpression hBuiltIn he.toRunsBy hRest
  obtain ⟨hQuietFirst, hQuietOthers⟩ := Run.split hFirst hOthers hQuiet
  have hLeft : ∃ x, g.Derives threshold s u left x :=
    he.derives_startExpression hg hQuietFirst hStart
  obtain ⟨x, hx⟩ := hLeft
  exact he.derives_continueExpression hg hx hQuietOthers hRest

end

end Engine.IsSound

namespace Grammar

/-- The engine of every depth is sound. -/
theorem isSound_engine {g : Grammar} (hg : g.hasOperatorsAlone = true) (rounds depth : Nat) :
    (g.engine rounds depth).IsSound g := by
  induction depth with
  | zero =>
      refine ⟨runsBy_engine (hasBuiltInParselets_of_operators hg) rounds 0, fun h => ?_⟩
      cases h
  | succ depth ih =>
      refine ⟨runsBy_engine (hasBuiltInParselets_of_operators hg) rounds (depth + 1), ?_⟩
      intro threshold s t id h hQuiet
      exact ih.derives_parseExpression hg hQuiet h

/-- Parsing an expression is sound, whatever else has been done with the session since it was opened
on a source. Where it returns without a report, the tokens that were consumed are those of a tree,
and the node that was returned is this tree. The tree is the one that precedence asks for at each of
its nodes; the operators on its left spine are above the threshold, and what comes next is not and
would be taken in by nothing on its right spine.

An invalid token is reported when it is looked at and is consumed without another word. That nothing
is reported is therefore said from a time on at which no token had been looked at that was still to
be consumed: the time when the session was opened, the time when the expression is begun if no token
waits then, or any other. -/
theorem exists_tokens_of_expression {g : Grammar} (hg : g.hasOperatorsAlone = true)
    (hLexicon : g.lexicon.IsOrdinary) {rounds depth : Nat} {threshold : BindingPower}
    {source : List Char} {u s t : Session} {id : NodeId}
    (hOpened : (Session.ofSource g.lexicon source).Uses u) (hAhead : u.ahead = [])
    (hSince : u.Uses s) (h : (g.engine rounds depth).expression threshold s = some (id, t))
    (hQuiet : t.diagnostics = u.diagnostics) :
    ∃ x : Expression, x.IsAt t.arena source id ∧ s.coming = x.tokens ++ₛ t.coming ∧ x.Over g ∧
      x.IsCorrect g ∧ x.IsAbove g threshold ∧ x.StopsAt g (g.power t.coming.head.symbol) ∧
      g.power t.coming.head.symbol ≤ threshold := by
  have hEngine := isSound_engine hg rounds depth
  have hParsed := Run.continues (hEngine.run_expression h)
  have hBefore := (Uses.continues hSince).quiet_left hParsed hQuiet
  have hVigilant := ((vigilant_ofSource hLexicon source).of_ahead_eq_nil hOpened hAhead).uses
    hSince hBefore
  obtain ⟨x, hx, hNext⟩ := hEngine.sound h ⟨hVigilant, hQuiet.trans hBefore.symm⟩
  have hSource : t.source = source :=
    ((Uses.continues (hOpened.trans hSince)).trans hParsed).source
  exact ⟨x, hSource ▸ hx.isAt, hx.coming, hx.isOver, hx.correct, hx.above, hx.stops, hNext⟩

/-- The formula is parsed without a report after some of its tokens have been looked at, so its
tokens are those of a tree. -/
theorem exists_tokens_of_formulaSession :
    ∃ s id t, s = (Sample.formulaSession.lookahead 2).2 ∧
      (Sample.formulaGrammar.engine 20 20).expression .lowest s = some (id, t) ∧
      t.diagnostics = .empty ∧
      ∃ x : Expression, x.IsAt t.arena Sample.formulaSession.source id ∧
        s.coming = x.tokens ++ₛ t.coming ∧ x.Over Sample.formulaGrammar ∧
        x.IsCorrect Sample.formulaGrammar ∧ x.IsAbove Sample.formulaGrammar .lowest ∧
        x.StopsAt Sample.formulaGrammar (Sample.formulaGrammar.power t.coming.head.symbol) ∧
        Sample.formulaGrammar.power t.coming.head.symbol ≤ .lowest := by
  have hParsed : ((Sample.formulaGrammar.engine 20 20).expression .lowest
      (Sample.formulaSession.lookahead 2).2).any (·.2.diagnostics = .empty) = true := by
    decide +kernel
  obtain ⟨⟨id, t⟩, hResult, hQuiet⟩ := (Option.any_eq_true _ _).mp hParsed
  have hQuiet := of_decide_eq_true hQuiet
  exact ⟨_, id, t, rfl, hResult, hQuiet,
    exists_tokens_of_expression (by decide +kernel) ⟨by decide +kernel, by decide +kernel⟩ .refl rfl
      (.tail (.single (.consume _)) (.lookahead _ 2)) hResult hQuiet⟩

/-- An invalid token that waits has been reported. Where a group should be closed it is found
without another word, and the group is returned although its closing token is missing. -/
example :
    let start := (Session.ofSource Sample.formulaGrammar.lexicon "(a $".toList).consume.2
    let s := (start.lookahead 2).2
    ((Sample.formulaGrammar.engine 20 20).expression .lowest s).any (fun r =>
      r.2.diagnostics == s.diagnostics && r.2.coming.head.symbol == .invalid) = true := by
  decide +kernel

end Grammar

end Precedence
