import Precedence.Grammar.Declaration
import Precedence.Proofs.Expression.Reading

/-!
Writing an expression down and reading it back: a tree that precedence asks for is read back from
its tokens as it was, from any threshold below its left spine and in front of any token that its
right spine does not take in. The induction is on the tree, with one case for each construct; what
the constructs do has been shown one by one.
-/
namespace Precedence

open Session

section

variable {g : Grammar} (hg : g.IsOrderly)

include hg

mutual

/-- The tokens of a tree lead to the tree. -/
theorem Expression.reads : ∀ (x : Expression) {threshold : BindingPower} {s : Session}
    {rest : Stream' Token}, x.Over g → x.IsCorrect g → x.IsAbove g threshold →
    x.StopsAt g (g.power rest.head.symbol) → s.coming = x.tokens ++ₛ rest →
    g.Reads threshold x s rest
  | .name token, threshold, s, rest, hOver, _, _, _, hComing => by
      rw [Expression.tokens, Stream'.cons_append_stream, Stream'.nil_append_stream] at hComing
      have hHead : s.coming.head = token := by rw [hComing, Stream'.head_cons]
      have hReads : g.Reads threshold (.name token) s s.coming.tail :=
        Grammar.reads_name hHead hOver
      rwa [hComing, Stream'.tail_cons] at hReads
  | .group opening inner closing, _, s, rest, hOver, hCorrect, _, _, hComing => by
      obtain ⟨hOpening, hInner⟩ := hOver
      simp only [Expression.tokens, Stream'.cons_append_stream, Stream'.append_append_stream,
        Stream'.nil_append_stream] at hComing
      refine Grammar.reads_group hg (by rw [hComing, Stream'.head_cons]) hOpening ?_
      -- a closing token has the lowest power, so the inner expression stops at it anyway
      have hPower := hg.power_closing hOpening
      refine (inner.reads hInner hCorrect (hInner.isAbove_lowest hg) ?_ ?_).parses ?_
      · rw [Stream'.head_cons, hPower]
        exact inner.stopsAt_lowest
      · rw [coming_consume, hComing, Stream'.tail_cons]
      · rw [Stream'.head_cons, hPower]
  | .prefixed op operand, _, s, rest, hOver, hCorrect, _, hStops, hComing => by
      obtain ⟨⟨power, hOp⟩, hOperand⟩ := hOver
      obtain ⟨hAbove, hCorrect⟩ := hCorrect
      obtain ⟨hNext, hStops⟩ := List.forall_mem_cons.mp hStops
      rw [Expression.tokens, Stream'.cons_append_stream] at hComing
      refine Grammar.reads_prefixed hg (by rw [hComing, Stream'.head_cons]) hOp ?_
      refine (operand.reads hOperand hCorrect hAbove hStops ?_).parses hNext
      rw [coming_consume, hComing, Stream'.tail_cons]
  | .postfixed operand op, _, s, rest, hOver, hCorrect, hAbove, _, hComing => by
      obtain ⟨hForm, hOperand⟩ := hOver
      obtain ⟨hStops, hCorrect⟩ := hCorrect
      obtain ⟨hPower, hAbove⟩ := List.forall_mem_cons.mp hAbove
      refine Grammar.reads_postfixed hForm hPower ?_
      refine operand.reads hOperand hCorrect hAbove ?_ ?_
      · rw [Stream'.head_cons]
        exact hStops
      · simp only [hComing, Expression.tokens, Stream'.append_append_stream,
          Stream'.cons_append_stream, Stream'.nil_append_stream]
  | .binary left op right, _, s, rest, hOver, hCorrect, hAbove, hStops, hComing => by
      obtain ⟨⟨associativity, hForm⟩, hLeft, hRight⟩ := hOver
      obtain ⟨hLeftStops, hRightAbove, hLeftCorrect, hRightCorrect⟩ := hCorrect
      obtain ⟨hPower, hAbove⟩ := List.forall_mem_cons.mp hAbove
      obtain ⟨hNext, hStops⟩ := List.forall_mem_cons.mp hStops
      refine Grammar.reads_binary hForm hPower (right.tokens ++ₛ rest) ?_ ?_
      -- the loop that reads the left operand goes on with the operator, so they share a threshold
      · refine left.reads hLeft hLeftCorrect hAbove ?_ ?_
        · rw [Stream'.head_cons]
          exact hLeftStops
        · rw [hComing, Expression.tokens, Stream'.append_append_stream, Stream'.cons_append_stream]
      · intro t hRest
        exact (right.reads hRight hRightCorrect hRightAbove hStops hRest).parses hNext
  | .ternary condition first thenBranch second elseBranch, _, s, rest, hOver, hCorrect, hAbove,
      hStops, hComing => by
      obtain ⟨hForm, hCondition, hThen, hElse⟩ := hOver
      obtain ⟨hConditionStops, hElseAbove, hConditionCorrect, hThenCorrect, hElseCorrect⟩ :=
        hCorrect
      obtain ⟨hPower, hAbove⟩ := List.forall_mem_cons.mp hAbove
      obtain ⟨hNext, hStops⟩ := List.forall_mem_cons.mp hStops
      have hSecond := hg.power_delimiter hForm (List.mem_cons_self ..)
      refine Grammar.reads_ternary hForm hPower
        (thenBranch.tokens ++ₛ .cons second (elseBranch.tokens ++ₛ rest))
        (elseBranch.tokens ++ₛ rest) ?_ ?_ ?_
      · refine condition.reads hCondition hConditionCorrect hAbove ?_ ?_
        · rw [Stream'.head_cons]
          exact hConditionStops
        · simp only [hComing, Expression.tokens, Stream'.append_append_stream,
            Stream'.cons_append_stream]
      · intro t hRest
        refine (thenBranch.reads hThen hThenCorrect (hThen.isAbove_lowest hg) ?_ hRest).parses ?_
        · rw [Stream'.head_cons, hSecond]
          exact thenBranch.stopsAt_lowest
        · rw [Stream'.head_cons, hSecond]
      · intro t hRest
        exact (elseBranch.reads hElse hElseCorrect hElseAbove hStops hRest).parses hNext
  | .call callee opening args closing, _, s, rest, hOver, hCorrect, hAbove, _, hComing => by
      obtain ⟨⟨separator, hForm, hArgs⟩, hCallee⟩ := hOver
      obtain ⟨hStops, hCalleeCorrect, hArgsCorrect⟩ := hCorrect
      obtain ⟨hPower, hAbove⟩ := List.forall_mem_cons.mp hAbove
      refine Grammar.reads_call hForm hPower (args.tokens ++ₛ .cons closing rest) ?_ ?_
      · refine callee.reads hCallee hCalleeCorrect hAbove ?_ ?_
        · rw [Stream'.head_cons]
          exact hStops
        · simp only [hComing, Expression.tokens, Stream'.append_append_stream,
            Stream'.cons_append_stream, Stream'.nil_append_stream]
      · intro t hRest
        exact args.parses hForm hArgs hArgsCorrect hRest

/-- The tokens of arguments, and the token that closes their call, lead to the arguments. -/
theorem Arguments.parses : ∀ (xs : Arguments) {opening : Symbol} {closing : Token}
    {separator : Symbol} {s : Session} {rest : Stream' Token},
    g.formFor? opening = some (.call closing.symbol separator) → xs.Over g separator →
    xs.AreCorrect g → s.coming = xs.tokens ++ₛ .cons closing rest →
    g.ParsesArguments closing.symbol separator xs s rest
  | .none, _, closing, separator, s, rest, _, _, _, hComing => by
      rw [Arguments.tokens, Stream'.nil_append_stream] at hComing
      have hHead : s.coming.head = closing := by rw [hComing, Stream'.head_cons]
      have hParses : g.ParsesArguments closing.symbol separator .none s s.coming.tail :=
        Grammar.parsesArguments_none hHead
      rwa [hComing, Stream'.tail_cons] at hParses
  | .last arg, _, closing, _, s, rest, hForm, hOver, hCorrect, hComing => by
      obtain ⟨hDistinct, hNoPrefix⟩ := hg.call hForm
      have hPower := hg.power_delimiter hForm (List.mem_cons_self ..)
      rw [Arguments.tokens] at hComing
      obtain ⟨hClosing, hEnd⟩ := Expression.Over.head_ne hg hOver hNoPrefix hComing
      refine Grammar.parsesArguments_last hClosing hEnd hDistinct ?_
      refine (arg.reads hOver hCorrect (Expression.Over.isAbove_lowest hg hOver) ?_ ?_).parses ?_
      · rw [Stream'.head_cons, hPower]
        exact arg.stopsAt_lowest
      · rw [coming_peeked, hComing]
      · rw [Stream'.head_cons, hPower]
  | .more arg token xs, _, closing, separator, s, rest, hForm, hOver, hCorrect, hComing => by
      obtain ⟨rfl, hArg, hRest⟩ := hOver
      obtain ⟨hArgCorrect, hRestCorrect⟩ := hCorrect
      obtain ⟨_, hNoPrefix⟩ := hg.call hForm
      have hPower := hg.power_delimiter hForm (List.mem_cons_of_mem _ (List.mem_cons_self ..))
      simp only [Arguments.tokens, Stream'.append_append_stream, Stream'.cons_append_stream]
        at hComing
      obtain ⟨hClosing, hEnd⟩ := Expression.Over.head_ne hg hArg hNoPrefix hComing
      refine Grammar.parsesArguments_more hClosing hEnd
        (xs.tokens ++ₛ .cons closing rest) ?_ ?_
      · refine (arg.reads hArg hArgCorrect (Expression.Over.isAbove_lowest hg hArg) ?_ ?_).parses ?_
        · rw [Stream'.head_cons, hPower]
          exact arg.stopsAt_lowest
        · rw [coming_peeked, hComing]
        · rw [Stream'.head_cons, hPower]
      · intro t hLater
        exact xs.parses hForm hRest hRestCorrect hLater

end

end

/-- A tree that precedence asks for is read back from its tokens. This is so from every threshold
below its left spine and in front of every token that binds no more tightly than the threshold and
that its right spine does not take in: exactly the tokens are consumed, nothing is reported, and the
node that is returned is the tree. Bounds as high as the number of the tokens are enough. -/
theorem Expression.expression_tokens {g : Grammar} (hg : g.IsOrderly) {x : Expression}
    (hOver : x.Over g) (hCorrect : x.IsCorrect g) {threshold : BindingPower}
    (hAbove : x.IsAbove g threshold) {rest : Stream' Token}
    (hNext : g.power rest.head.symbol ≤ threshold)
    (hStops : x.StopsAt g (g.power rest.head.symbol)) {s : Session}
    (hComing : s.coming = x.tokens ++ₛ rest) :
    ∃ id t, x.IsAt t.arena s.source id ∧ t.coming = rest ∧ t.log = s.log ∧
      ∀ rounds depth, x.tokens.length ≤ rounds → x.tokens.length ≤ depth →
        (g.engine rounds depth).expression threshold s = some (id, t) := by
  obtain ⟨id, t, hReach, hAt, hReturns⟩ :=
    (x.reads hg hOver hCorrect hAbove hStops hComing).parses hNext
  rw [hReach.source] at hAt
  exact ⟨id, t, hAt, hReach.coming, hReach.log, hReturns⟩

namespace Sample

/-- Operators of every kind between names. The power of the sign lies between those of sums and of
exponents. -/
def formulas : Rules where
  lexical := [.ignore .blanks]
  declarations := Declaration.names ++
    [.group "(" ")" none true, .call "(" ")" "," .call, .ternary "?" ":" .conditional,
      .infixOperator "+" .left .sum, .infixOperator "-" .left .sum,
      .infixOperator "^" .right .exponent, .postfixOperator "!" .postfixed, .prefixOperator "-" 35]

/-- The grammar of the formulas. -/
def formulaGrammar : Grammar := (formulas.grammar .standard).toOption.getD default

theorem isOrderly_formulaGrammar : formulaGrammar.IsOrderly where
  spelled := by decide +kernel
  positive := by decide +kernel
  closings := by decide +kernel
  delimiters := by decide +kernel
  calls := by decide +kernel

/-- A character of a formula as a token. It is a name unless the grammar knows its spelling. -/
def formulaToken (spelling : String) (column : Nat) : Token :=
  .covering ((formulaGrammar.symbols.find? spelling).getD .name)
    ⟨⟨column, column + 1⟩, ⟨1, column + 1⟩, ⟨1, column + 2⟩⟩

/-- The name that is a character of a formula. -/
def formulaName (spelling : String) (column : Nat) : Expression :=
  .name (formulaToken spelling column)

/-- The formula `-a^b^f(d,e!)+c?(g):h`. -/
def formula : Expression :=
  .ternary
    (.binary
      (.prefixed (formulaToken "-" 0)
        (.binary (formulaName "a" 1) (formulaToken "^" 2)
          (.binary (formulaName "b" 3) (formulaToken "^" 4)
            (.call (formulaName "f" 5) (formulaToken "(" 6)
              (.more (formulaName "d" 7) (formulaToken "," 8)
                (.last (.postfixed (formulaName "e" 9) (formulaToken "!" 10))))
              (formulaToken ")" 11)))))
      (formulaToken "+" 12) (formulaName "c" 13))
    (formulaToken "?" 14)
    (.group (formulaToken "(" 15) (formulaName "g" 16) (formulaToken ")" 17))
    (formulaToken ":" 18) (formulaName "h" 19)

/-- The session at the first token of the formula. -/
def formulaSession : Session :=
  (Session.ofSource formulaGrammar.lexicon "-a^b^f(d,e!)+c?(g):h".toList).consume.2

theorem over_formula : formula.Over formulaGrammar := by
  have hName (spelling : String) (column : Nat)
      (h : (formulaToken spelling column).symbol = .name) :
      (formulaName spelling column).Over formulaGrammar := ⟨h, rfl⟩
  refine ⟨rfl, ⟨⟨.left, rfl⟩, ⟨⟨35, rfl⟩, ⟨.right, rfl⟩, hName _ _ rfl, ⟨.right, rfl⟩,
    hName _ _ rfl, ⟨formulaGrammar.symbols.find? "," |>.getD .name, rfl, rfl, hName _ _ rfl, rfl,
      hName _ _ rfl⟩, hName _ _ rfl⟩, hName _ _ rfl⟩, ⟨rfl, hName _ _ rfl⟩, hName _ _ rfl⟩

theorem isCorrect_formula : formula.IsCorrect formulaGrammar := by decide +kernel

theorem isAbove_formula : formula.IsAbove formulaGrammar .lowest := by decide +kernel

theorem coming_formulaSession : formulaSession.coming =
    formula.tokens ++ₛ Stream'.const (.empty .eof 20 ⟨1, 21⟩) := by
  have hLexemes : formulaGrammar.lexicon.lexemes "-a^b^f(d,e!)+c?(g):h".toList =
      formula.tokens.map (⟨·, []⟩) ++ [⟨.empty .eof 20 ⟨1, 21⟩, []⟩] := by decide +kernel
  rw [formulaSession, coming_consume, coming_ofSource hLexemes]
  simp [Function.comp_def]

/-- The formula is read back: twenty tokens lead to its tree, and the end is left. -/
theorem expression_formulaSession :
    ∃ id t, formula.IsAt t.arena formulaSession.source id ∧
      t.coming = Stream'.const (.empty .eof 20 ⟨1, 21⟩) ∧ t.log = formulaSession.log ∧
      (formulaGrammar.engine 20 20).expression .lowest formulaSession = some (id, t) := by
  obtain ⟨id, t, hAt, hComing, hLog, hReturns⟩ := Expression.expression_tokens
    isOrderly_formulaGrammar over_formula isCorrect_formula isAbove_formula (by decide +kernel)
    (by decide +kernel) coming_formulaSession
  exact ⟨id, t, hAt, hComing, hLog, hReturns 20 20 (by decide) (by decide)⟩

end Sample

end Precedence
