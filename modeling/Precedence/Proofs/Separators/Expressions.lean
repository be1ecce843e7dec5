import Precedence.Proofs.Expression.RoundTrip
import Precedence.Proofs.Separators.Segments

/-!
Expressions as segments. An expression that precedence asks for is read from its tokens in front of
every token that goes on with nothing, so a sequence of such expressions is read segment by segment,
as expressions and as statements, whatever its separators are.
-/
namespace Precedence

open Session

/-! ### The tree of an expression -/

mutual

/-- An expression without its tokens. A name has the text that its token has in the source. -/
def Expression.tree (source : List Char) : Expression → SyntaxTree
  | .name token => .node (.name (String.ofList (token.payload source))) []
  | .group _ inner _ => .node .group [inner.tree source]
  | .prefixed op operand => .node (.prefixed op.symbol) [operand.tree source]
  | .postfixed operand op => .node (.postfixed op.symbol) [operand.tree source]
  | .binary left op right => .node (.binary op.symbol) [left.tree source, right.tree source]
  | .ternary condition _ thenBranch _ elseBranch =>
    .node .ternary [condition.tree source, thenBranch.tree source, elseBranch.tree source]
  | .call callee _ args _ => .node .call (callee.tree source :: args.trees source)

/-- Arguments without their tokens. -/
def Arguments.trees (source : List Char) : Arguments → List SyntaxTree
  | .none => []
  | .last arg => [arg.tree source]
  | .more arg _ rest => arg.tree source :: rest.trees source

end

mutual

/-- A node that is an expression is its tree. -/
theorem Expression.IsAt.isTree {a : Arena} {source : List Char} :
    ∀ {x : Expression} {id : NodeId}, x.IsAt a source id → a.IsTree (x.tree source) id
  | .name _, _, ⟨n, hKind, hText⟩ => ⟨_, hKind, by rw [Arena.label?, hText]; rfl, rfl⟩
  | .group _ _ _, _, ⟨x, hKind, hInner⟩ => ⟨_, hKind, rfl, x, [], rfl, hInner.isTree, rfl⟩
  | .prefixed _ _, _, ⟨x, hKind, hOperand⟩ => ⟨_, hKind, rfl, x, [], rfl, hOperand.isTree, rfl⟩
  | .postfixed _ _, _, ⟨x, hKind, hOperand⟩ => ⟨_, hKind, rfl, x, [], rfl, hOperand.isTree, rfl⟩
  | .binary _ _ _, _, ⟨x, y, hKind, hLeft, hRight⟩ =>
      ⟨_, hKind, rfl, x, [y], rfl, hLeft.isTree, y, [], rfl, hRight.isTree, rfl⟩
  | .ternary _ _ _ _ _, _, ⟨x, y, z, hKind, hCondition, hThen, hElse⟩ =>
      ⟨_, hKind, rfl, x, [y, z], rfl, hCondition.isTree, y, [z], rfl, hThen.isTree, z, [], rfl,
        hElse.isTree, rfl⟩
  | .call _ _ _ _, _, ⟨x, ids, hKind, hCallee, hArgs⟩ =>
      ⟨_, hKind, rfl, x, ids, rfl, hCallee.isTree, hArgs.areTrees⟩

/-- Nodes that are arguments are their trees. -/
theorem Arguments.AreAt.areTrees {a : Arena} {source : List Char} :
    ∀ {xs : Arguments} {ids : List NodeId}, xs.AreAt a source ids →
      a.AreTrees (xs.trees source) ids
  | .none, _, hNone => hNone
  | .last _, _, ⟨x, hIds, hArg⟩ => ⟨x, [], hIds, hArg.isTree, rfl⟩
  | .more _ _ _, _, ⟨x, later, hIds, hArg, hRest⟩ => ⟨x, later, hIds, hArg.isTree, hRest.areTrees⟩

end

/-! ### Reading -/

namespace Expression

variable {g : Grammar} (hg : g.IsOrderly) {x : Expression} {s₀ : Session} {ends : List Symbol}
  {rounds depth : Nat}

include hg

/-- In front of symbols of the lowest power, an expression is read from its tokens. -/
theorem readsAs_expression (hOver : x.Over g) (hCorrect : x.IsCorrect g)
    (hEnds : ∀ symbol ∈ ends, g.power symbol = .lowest) (hRounds : x.tokens.length ≤ rounds)
    (hDepth : x.tokens.length ≤ depth) :
    s₀.ReadsAs ((g.engine rounds depth).expression .lowest) ends x.tokens (x.tree s₀.source) := by
  intro s rest hReach hFollows
  have hPower := hEnds _ hFollows
  have hReads : g.Reads .lowest x s rest :=
    x.reads hg hOver hCorrect (hOver.isAbove_lowest hg) (hPower ▸ x.stopsAt_lowest) hReach.coming
  obtain ⟨id, t, hHere, hAt, hReturns⟩ := hReads.parses (Nat.le_of_eq hPower)
  rw [hHere.source, hReach.source] at hAt
  exact ⟨id, t, hReturns rounds depth hRounds hDepth, hHere, hAt.isTree⟩

/-- It is read as a statement as well, if none starts with its first symbol. A statement that is
wrapped is a node of its own. -/
theorem readsAs_statement (hOver : x.Over g) (hCorrect : x.IsCorrect g)
    (hEnds : ∀ symbol ∈ ends, g.power symbol = .lowest) (hRounds : x.tokens.length ≤ rounds)
    (hDepth : x.tokens.length ≤ depth + 1)
    (hPlain : ∀ token ∈ x.tokens.head?, g.statementFor? token.symbol = none) (wrap : Bool) :
    s₀.ReadsAs ((g.engine rounds (depth + 1)).statement wrap) ends x.tokens
      (if wrap then .node .statement [x.tree s₀.source] else x.tree s₀.source) := by
  intro s rest hReach hFollows
  have hPeeked := reaches_peeked_of hReach.coming
  have hReadsAs : s₀.ReadsAs ((g.engine rounds (depth + 1)).expression .lowest) ends x.tokens
      (x.tree s₀.source) := readsAs_expression hg hOver hCorrect hEnds hRounds hDepth
  obtain ⟨id, t, hParse, hHere, hTree⟩ := hReadsAs s.peeked rest (hReach.trans hPeeked) hFollows
  have hNone : g.statementFor? s.coming.head.symbol = none := by
    obtain ⟨token, later, hTokens, -⟩ := hOver.tokens_eq_cons hg
    rw [hReach.coming, hTokens, Stream'.cons_append_stream, Stream'.head_cons]
    exact hPlain token (by rw [hTokens]; rfl)
  have hStatement : (g.engine rounds (depth + 1)).statement wrap s =
      if wrap then some (t.alloc (.statement id) (t.nodeRange id)) else some (id, t) := by
    change g.parseStatement (g.engine rounds depth) wrap s = _
    change g.parseExpression (g.engine rounds depth) .lowest s.peeked = _ at hParse
    rw [Grammar.parseStatement_eq, hNone]
    dsimp only
    rw [hParse, Option.bind_some]
  rw [hStatement]
  cases wrap with
  | false => exact ⟨id, t, rfl, hPeeked.trans hHere, hTree⟩
  | true =>
      have hNode := reaches_alloc_of hHere.coming (.statement id) (t.nodeRange id)
      exact ⟨_, _, rfl, (hPeeked.trans hHere).trans hNode,
        ⟨_, t.kind?_alloc_self _ _, rfl, id, [], rfl, hTree.mono hNode.arena, rfl⟩⟩

/-- A sequence of expressions, each with separators behind it, is read segment by segment if each
expression is read and no barred symbol starts one. -/
theorem readsSegments {parse : Parse NodeId} (treeOf : Expression → SyntaxTree)
    {separator terminator : Symbol} {barred : List Symbol}
    {parts : List (Expression × List Token)}
    (hReads : ∀ p ∈ parts, s₀.ReadsAs parse [separator, terminator] p.1.tokens (treeOf p.1))
    (hOver : ∀ p ∈ parts, p.1.Over g)
    (hBarred : ∀ symbol ∈ barred, symbol = .eof ∨ g.prefixFor? symbol = none)
    (hSeparators : ∀ p ∈ parts, ∀ token ∈ p.2, token.symbol = separator) :
    s₀.ReadsSegments parse separator terminator barred
      (parts.map fun p => ⟨p.1.tokens, treeOf p.1, p.2⟩) := by
  refine ⟨?_, ?_, ?_⟩
  · rw [List.forall_mem_map]
    exact hReads
  · rw [List.forall_mem_map]
    intro p hMem
    obtain ⟨token, later, hTokens, hStarts, hMore⟩ := (hOver p hMem).tokens_eq_cons hg
    refine ⟨token, later, hTokens, fun hHere => ?_⟩
    rcases hBarred token.symbol hHere with hEnd | hNone
    · exact hMore hEnd
    · rw [hNone] at hStarts
      cases hStarts
  · rw [List.forall_mem_map]
    exact hSeparators

end Expression

namespace Sample

theorem over_formulaName {spelling : String} {column : Nat}
    (h : (formulaToken spelling column).symbol = .name) :
    (formulaName spelling column).Over formulaGrammar := ⟨h, rfl⟩

/-- The formula `a+b`. -/
def sumFormula : Expression :=
  .binary (formulaName "a" 2) (formulaToken "+" 3) (formulaName "b" 4)

/-- The formula `-c!`. -/
def signFormula : Expression :=
  .prefixed (formulaToken "-" 7) (.postfixed (formulaName "c" 8) (formulaToken "!" 9))

theorem over_sumFormula : sumFormula.Over formulaGrammar :=
  ⟨⟨.left, rfl⟩, over_formulaName rfl, over_formulaName rfl⟩

theorem over_signFormula : signFormula.Over formulaGrammar :=
  ⟨⟨35, rfl⟩, rfl, over_formulaName rfl⟩

end Sample

end Precedence
