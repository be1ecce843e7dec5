import Precedence.Proofs.Diagnostic.Errors
import Precedence.Proofs.Engine.Equations
import Precedence.Proofs.Grammar.Parselets
import Precedence.Proofs.Session.Step

/-!
Everything that is parsed with the library's own parselets is a run. There is one lemma for each
construct, which takes the parsers of what is nested for granted, and one induction on the depth of
the engine at the end, which puts them together.
-/
namespace Precedence

open Session

/-- A fault that was reported is an error. -/
theorem Session.hasErrors_fault (s : Session) (symbols : SymbolTable) (f : SyntaxFault)
    (range : SourceRange) : (s.fault symbols f range).2.diagnostics.hasErrors = true := by
  simp [fault, report, Diagnostics.push, Diagnostics.hasErrors, SyntaxFault.message,
    Message.isError]

/-- A count of errors that has risen means that an error was reported. -/
theorem Session.hasErrors_of_errorCount_lt {s t : Session}
    (h : decide (s.errorCount < t.errorCount) = true) : t.diagnostics.hasErrors = true :=
  Diagnostics.hasErrors_of_errorCount_pos (Nat.zero_lt_of_lt (of_decide_eq_true h))

/-- The parsers of an engine consume a token and then make a run of a grammar, and name symbols by
its table. -/
structure Engine.RunsBy (e : Engine) (g : Grammar) : Prop where
  symbols : e.symbols = g.symbols
  expression {threshold : BindingPower} {s t : Session} {id : NodeId} :
    e.expression threshold s = some (id, t) → g.Run s.consume.2 t
  statement {wrap : Bool} {s t : Session} {id : NodeId} :
    e.statement wrap s = some (id, t) → g.Run s.consume.2 t

theorem Engine.RunsBy.run_expression {e : Engine} {g : Grammar} (he : e.RunsBy g)
    {threshold : BindingPower} {s t : Session} {id : NodeId}
    (h : e.expression threshold s = some (id, t)) : g.Run s t :=
  (g.run_consume s).trans (he.expression h)

theorem Engine.RunsBy.run_statement {e : Engine} {g : Grammar} (he : e.RunsBy g) {wrap : Bool}
    {s t : Session} {id : NodeId} (h : e.statement wrap s = some (id, t)) : g.Run s t :=
  (g.run_consume s).trans (he.statement h)

section

variable {g : Grammar} {e : Engine} {s t : Session} {id : NodeId}

open Relation Grammar

theorem Grammar.Run.of_result {result : NodeId × Session} (hRun : g.Run s result.2)
    (h : some result = some (id, t)) : g.Run s t := by
  cases h
  exact hRun

/-! ### Sequences -/

theorem Session.moves_synchronize {recovery : RecoverySet} {rounds : Nat} {found : Bool}
    (h : s.synchronize recovery rounds = some (found, t)) : s.Moves t := by
  induction rounds generalizing s with
  | zero => cases h
  | succ rounds ih =>
      rw [synchronize_succ] at h
      split at h
      · cases h
        exact .single (.look s)
      · split at h
        · cases h
          exact .single (.look s)
        · exact .head (.consume s) (ih h)

namespace Engine

theorem moves_skipSeparators {separator : Symbol} {rounds : Nat}
    (h : skipSeparators separator rounds s = some t) : s.Moves t := by
  induction rounds generalizing s with
  | zero => cases h
  | succ rounds ih =>
      rw [skipSeparators_succ] at h
      split at h
      · exact .head (.consume s) (ih h)
      · cases h
        exact .single (.look s)

theorem moves_skipBefore {separator : Option Symbol} (h : e.skipBefore separator s = some t) :
    s.Moves t := by
  cases separator with
  | none =>
      cases h
      exact .refl
  | some separator => exact moves_skipSeparators h

theorem run_separatedFrom (he : e.RunsBy g) {separator terminator : Symbol} {power : BindingPower}
    {rounds : Nat} {items found : List NodeId}
    (h : e.separatedFrom separator terminator power rounds items s = some (found, t)) :
    g.Run s t := by
  induction rounds generalizing items s with
  | zero => cases h
  | succ rounds ih =>
      rw [separatedFrom_succ, he.symbols] at h
      split at h
      · cases h
        exact run_consume g s
      · split at h
        · cases h
          exact (run_peeked g s).tail (.fault _ _ _)
        · simp only [Option.bind_eq_some_iff, Prod.exists] at h
          obtain ⟨item, u, hItem, hRest⟩ := h
          have hRun := (run_peeked g s).trans (he.run_expression hItem)
          split at hRest
          · exact (hRun.trans (run_consume g u)).trans (ih hRest)
          · cases hRest
            exact (hRun.trans (run_peeked g u)).trans (run_expect g _ _)

/-! ### Blocks -/

theorem run_faultBoundary (he : e.RunsBy g) (separator terminator : Symbol) (failed : Bool)
    (s : Session) : g.Run s (e.faultBoundary separator terminator failed s) := by
  unfold faultBoundary
  rw [he.symbols]
  split
  · exact run_peeked g s
  · exact (run_peeked g s).tail (.fault _ _ _)

@[simp] theorem coming_faultBoundary (separator terminator : Symbol) (failed : Bool)
    (s : Session) : (e.faultBoundary separator terminator failed s).coming = s.coming := by
  unfold faultBoundary
  split
  · exact s.coming_peeked
  · exact s.coming_peeked

theorem run_skipToBoundary {separator terminator : Symbol}
    (hReason : s.diagnostics.hasErrors = true ∨ s.coming.head.symbol = .invalid)
    (h : e.skipToBoundary separator terminator s = some (id, t)) : g.Run s t := by
  rw [skipToBoundary_eq] at h
  simp only [Option.bind_eq_some_iff, Prod.exists] at h
  obtain ⟨found, u, hSkipped, hNode⟩ := h
  cases hNode
  exact .single (.passOver hReason (moves_synchronize hSkipped) _)

theorem run_afterStatement (he : e.RunsBy g) {separator terminator : Symbol} {failed : Bool}
    {node : Option NodeId} (hFailed : failed = true → s.diagnostics.hasErrors = true)
    (h : e.afterStatement separator terminator failed s = some (node, t)) : g.Run s t := by
  rw [afterStatement_eq] at h
  have hFault := run_faultBoundary he separator terminator failed s
  split at h
  · cases h
    exact run_consume g s
  · split at h
    · cases h
      exact run_peeked g s
    · split at h
      · cases h
        exact hFault
      · simp only [Option.bind_eq_some_iff, Prod.exists] at h
        obtain ⟨skipped, u, hSkipped, hNode⟩ := h
        cases hNode
        refine hFault.trans (run_skipToBoundary ?_ hSkipped)
        -- what is skipped was reported: with the statement, by the lexer, or just now
        by_cases hInvalid : s.coming.head.symbol = .invalid
        · right
          rw [coming_faultBoundary]
          exact hInvalid
        · left
          unfold faultBoundary
          split
          · next hReason =>
            exact Diagnostics.hasErrors_of_prefix s.continues_peeked.reported
              (hFailed (hReason.resolve_right hInvalid))
          · exact hasErrors_fault _ _ _ _

theorem run_statementsFrom (he : e.RunsBy g) {separator : Option Symbol} {terminator : Symbol}
    {wrap : Bool} {rounds : Nat} {found children : List NodeId}
    (h : e.statementsFrom separator terminator wrap rounds found s = some (children, t)) :
    g.Run s t := by
  induction rounds generalizing found s with
  | zero => cases h
  | succ rounds ih =>
      rw [statementsFrom_succ, he.symbols] at h
      simp only [Option.bind_eq_some_iff] at h
      obtain ⟨u, hBefore, h⟩ := h
      have hStart : g.Run s u := .ofMoves (moves_skipBefore hBefore)
      split at h
      · cases h
        exact hStart.trans (run_consume g u)
      · split at h
        · cases h
          exact (hStart.trans (run_peeked g u)).tail (.fault _ _ _)
        · simp only [Option.bind_eq_some_iff, Prod.exists] at h
          obtain ⟨statement, v, hStatement, h⟩ := h
          have hRun := (hStart.trans (run_peeked g u)).trans (he.run_statement hStatement)
          cases separator with
          | none => exact hRun.trans (ih h)
          | some boundary =>
              simp only [Option.bind_eq_some_iff, Prod.exists] at h
              obtain ⟨skipped, w, hAfter, h⟩ := h
              exact (hRun.trans (run_afterStatement he hasErrors_of_errorCount_lt hAfter)).trans
                (ih h)

theorem run_block (he : e.RunsBy g) {opening : SourceRange} {separator : Option Symbol}
    {terminator : Symbol} {wrap : Bool}
    (h : e.block opening separator terminator wrap s = some (id, t)) : g.Run s t := by
  simp only [block, Option.bind_eq_bind, Option.bind_eq_some_iff, Prod.exists] at h
  obtain ⟨children, u, hChildren, hNode⟩ := h
  cases hNode
  exact (run_statementsFrom he hChildren).tail (.alloc _ rfl _)

/-! ### Groups, calls and functions -/

theorem run_closeGroup (he : e.RunsBy g) (closing : Symbol) (wrapped : Bool) (token : Token)
    (inner : NodeId) (s : Session) :
    g.Run s (e.closeGroup closing wrapped token inner s).2 := by
  unfold closeGroup
  rw [he.symbols]
  have hClosed := run_expect g s closing
  cases wrapped with
  | true => exact hClosed.tail (.alloc _ rfl _)
  | false => exact hClosed.tail (.setRange _ _ _)

theorem run_group (he : e.RunsBy g) {closing : Symbol} {separator : Option Symbol}
    {wrapped : Bool} {token : Token}
    (h : e.group closing separator wrapped token s = some (id, t)) : g.Run s t := by
  cases separator with
  | none =>
      simp only [group, enclosed, Option.bind_eq_bind, Option.bind_eq_some_iff, Prod.exists] at h
      obtain ⟨inner, u, hInner, hNode⟩ := h
      have hClose := run_closeGroup he closing wrapped token inner u
      exact .of_result ((he.run_expression hInner).trans hClose) hNode
  | some separator =>
      rw [group, tupleOrGroup_eq] at h
      split at h
      · cases h
        exact (run_consume g s).tail (.alloc _ rfl _)
      · simp only [Option.bind_eq_some_iff, Prod.exists] at h
        obtain ⟨inner, u, hInner, h⟩ := h
        have hRun := (run_peeked g s).trans (he.run_expression hInner)
        split at h
        · simp only [Option.bind_eq_some_iff, Prod.exists] at h
          obtain ⟨items, v, hItems, hNode⟩ := h
          cases hNode
          exact ((hRun.trans (run_consume g u)).trans (run_separatedFrom he hItems)).tail
            (.alloc _ rfl _)
        · have hClose := run_closeGroup he closing wrapped token inner u.peeked
          exact .of_result ((hRun.trans (run_peeked g u)).trans hClose) h

theorem run_call (he : e.RunsBy g) {closing separator : Symbol} {callee : NodeId}
    (h : e.call closing separator callee s = some (id, t)) : g.Run s t := by
  simp only [call, Option.bind_eq_bind, Option.bind_eq_some_iff, Prod.exists] at h
  obtain ⟨args, u, hArgs, hNode⟩ := h
  cases hNode
  exact (run_separatedFrom he hArgs).tail (.alloc _ rfl _)

theorem run_lambda (he : e.RunsBy g) {power : BindingPower} {left : NodeId}
    (h : e.lambda power left s = some (id, t)) : g.Run s t := by
  simp only [lambda, he.symbols, Option.bind_eq_bind, Option.bind_eq_some_iff, Prod.exists] at h
  obtain ⟨body, u, hBody, h⟩ := h
  have hNode (params : List NodeId) (range : SourceRange) :
      g.Run s (u.alloc (.lambda params body) range).2 :=
    (he.run_expression hBody).tail (.alloc u rfl range)
  split at h
  · cases h
    exact hNode _ _
  · cases h
    exact (hNode _ _).tail (.flag _ _ _ _)

/-! ### Literals -/

theorem run_attachFaults (he : e.RunsBy g) (node : NodeId)
    (faults : List (SyntaxFault × SourceRange)) (s : Session) :
    g.Run s (e.attachFaults node faults s) := by
  unfold attachFaults
  rw [he.symbols]
  induction faults generalizing s with
  | nil => exact .refl
  | cons fault faults ih => exact .head (.flag s fault.1 fault.2 node) (ih _)

theorem run_string (he : e.RunsBy g) (escape : Option Char) (token : Token) (s : Session) :
    g.Run s (e.string escape token s).2 := by
  cases escape with
  | none => exact .single (.alloc s rfl _)
  | some escape => exact .head (.alloc s rfl _) (run_attachFaults he _ _ _)

/-- The number consumed last makes a literal, or an invalid node that someone has reported. -/
theorem run_number (he : e.RunsBy g) {separators : Separators}
    (hParselet : g.prefixFor? s.previous.symbol = some (.number separators)) :
    g.Run s (e.number separators s.previous s).2 := by
  unfold number
  rw [he.symbols]
  split
  · exact .single (.alloc s rfl _)
  · next hDigits => exact .single (.spare s (.inr ⟨separators, hParselet, hDigits⟩))
  · exact .single (.reject s _)

/-! ### Operators -/

theorem run_prefixOperator (he : e.RunsBy g) {power : BindingPower} {token : Token}
    (h : e.prefixOperator power token s = some (id, t)) : g.Run s t := by
  simp only [prefixOperator, Option.bind_eq_bind, Option.bind_eq_some_iff, Prod.exists] at h
  obtain ⟨operand, u, hOperand, hNode⟩ := h
  cases hNode
  exact (he.run_expression hOperand).tail (.alloc _ rfl _)

theorem run_binaryOperator (he : e.RunsBy g) {associativity : Associativity}
    {power : BindingPower} {left : NodeId} {token : Token}
    (h : e.binaryOperator associativity power left token s = some (id, t)) : g.Run s t := by
  simp only [binaryOperator, Option.bind_eq_bind, Option.bind_eq_some_iff, Prod.exists] at h
  obtain ⟨right, u, hRight, hNode⟩ := h
  cases hNode
  exact (he.run_expression hRight).tail (.alloc _ rfl _)

theorem run_ternary (he : e.RunsBy g) {second : Symbol} {power : BindingPower}
    {condition : NodeId} (h : e.ternary second power condition s = some (id, t)) : g.Run s t := by
  simp only [ternary, he.symbols, Option.bind_eq_bind, Option.bind_eq_some_iff, Prod.exists] at h
  obtain ⟨thenBranch, u, hThen, elseBranch, v, hElse, hNode⟩ := h
  cases hNode
  have hToElse := (he.run_expression hThen).trans (run_expect g u second)
  exact (hToElse.trans (he.run_expression hElse)).tail (.alloc _ rfl _)

/-! ### The engine -/

/-- What starts with the token consumed last. -/
theorem run_parsePrefix (he : e.RunsBy g) {parselet : PrefixParselet}
    (hBuiltIn : parselet.isBuiltIn = true)
    (hParselet : g.prefixFor? s.previous.symbol = some parselet)
    (h : e.parsePrefix parselet s.previous s = some (id, t)) : g.Run s t := by
  cases parselet with
  | name =>
      cases h
      exact .single (.name s _)
  | number separators => exact .of_result (run_number he hParselet) h
  | boolean =>
      cases h
      exact .single (.alloc s rfl _)
  | string escape => exact .of_result (run_string he escape s.previous s) h
  | operator power => exact run_prefixOperator he h
  | group closing separator wrapped => exact run_group he h
  | block separator terminator wrap => exact run_block he h
  | custom parse => cases hBuiltIn

theorem run_parseInfix (he : e.RunsBy g) {parselet : InfixParselet} {left : NodeId}
    {token : Token} (hBuiltIn : parselet.form.isBuiltIn = true)
    (h : e.parseInfix parselet left token s = some (id, t)) : g.Run s t := by
  obtain ⟨power, form⟩ := parselet
  cases form with
  | postfixed =>
      cases h
      exact .single (.alloc s rfl _)
  | binary associativity => exact run_binaryOperator he h
  | ternary second => exact run_ternary he h
  | call closing separator => exact run_call he h
  | lambda => exact run_lambda he h
  | custom parse => cases hBuiltIn

end Engine

namespace Grammar

section

variable (hBuiltIn : g.hasBuiltInParselets = true)

include hBuiltIn

theorem run_startExpression (he : e.RunsBy g)
    (h : g.startExpression e s.previous s = some (id, t)) : g.Run s t := by
  unfold startExpression at h
  rw [he.symbols] at h
  split at h
  · cases h
    exact .single (.reject s _)
  · split at h
    · next hInvalid =>
      cases h
      exact .single (.spare s (.inl hInvalid))
    · split at h
      · next parselet hParselet =>
        exact Engine.run_parsePrefix he (isBuiltIn_of_prefixFor? hBuiltIn hParselet) hParselet h
      · cases h
        exact .single (.reject s _)

theorem run_continueExpression (he : e.RunsBy g) {threshold : BindingPower} {rounds : Nat}
    {left : NodeId} (h : g.continueExpression e threshold rounds left s = some (id, t)) :
    g.Run s t := by
  induction rounds generalizing left s with
  | zero => cases h
  | succ rounds ih =>
      rw [continueExpression_succ, he.symbols] at h
      split at h
      · cases h
        exact run_peeked g s
      · split at h
        · cases h
          exact (run_consume g s).tail (.fault _ _ _)
        · next parselet hParselet =>
          simp only [Option.bind_eq_some_iff, Prod.exists] at h
          obtain ⟨operand, u, hOperand, hRest⟩ := h
          have hOne := Engine.run_parseInfix he (isBuiltIn_of_infixFor? hBuiltIn hParselet) hOperand
          exact ((run_consume g s).trans hOne).trans (ih hRest)

/-- An expression is a run that starts with consuming a token. -/
theorem run_parseExpression (he : e.RunsBy g) {threshold : BindingPower}
    (h : g.parseExpression e threshold s = some (id, t)) : g.Run s.consume.2 t := by
  rw [parseExpression_eq] at h
  simp only [Option.bind_eq_some_iff, Prod.exists] at h
  obtain ⟨left, u, hStart, hRest⟩ := h
  rw [← s.previous_consume] at hStart
  exact (run_startExpression hBuiltIn he hStart).trans
    (run_continueExpression hBuiltIn he hRest)

theorem run_parseStatement (he : e.RunsBy g) {wrap : Bool}
    (h : g.parseStatement e wrap s = some (id, t)) : g.Run s.consume.2 t := by
  rw [parseStatement_eq, statementFor?_eq_none hBuiltIn] at h
  simp only [Option.bind_eq_some_iff, Prod.exists] at h
  obtain ⟨expression, u, hExpression, h⟩ := h
  have hRun := run_parseExpression hBuiltIn he hExpression
  rw [consume_peeked] at hRun
  split at h
  · cases h
    exact hRun.tail (.alloc _ rfl _)
  · cases h
    exact hRun

/-- Whatever the engine of a grammar parses is a run. -/
theorem runsBy_engine (rounds depth : Nat) : (g.engine rounds depth).RunsBy g := by
  induction depth with
  | zero =>
      refine ⟨rfl, fun h => ?_, fun h => ?_⟩
      all_goals cases h
  | succ depth ih =>
      refine ⟨rfl, fun h => ?_, fun h => ?_⟩
      · exact run_parseExpression hBuiltIn ih h
      · exact run_parseStatement hBuiltIn ih h

end

theorem run_parseRoot (he : e.RunsBy g) (h : g.parseRoot e s = some (id, t)) : g.Run s t := by
  unfold parseRoot at h
  split at h
  · exact he.run_expression h
  · have hStart := run_consume g s
    dsimp only at h
    split at h
    · exact hStart.trans (Engine.run_block he h)
    · exact hStart.trans (he.run_expression h)

theorem run_checkEnd (g : Grammar) (s : Session) : g.Run s (g.checkEnd s) := by
  unfold checkEnd
  split
  · rw [lookahead_zero]
    dsimp only
    split
    · exact run_peeked g s
    · exact (run_peeked g s).tail (.fault _ _ _)
  · exact .refl

/-- The whole parse of a source is a run from its start. -/
theorem run_parseSession? (hBuiltIn : g.hasBuiltInParselets = true) {source : String}
    (h : g.parseSession? source = some (id, t)) :
    g.Run (.ofSource g.lexicon source.toList) t := by
  simp only [parseSession?, Option.bind_eq_bind, Option.bind_eq_some_iff, Prod.exists] at h
  obtain ⟨root, u, hRoot, hEnd⟩ := h
  cases hEnd
  exact (run_parseRoot (runsBy_engine hBuiltIn _ _) hRoot).trans (run_checkEnd g u)

end Grammar

end

end Precedence
