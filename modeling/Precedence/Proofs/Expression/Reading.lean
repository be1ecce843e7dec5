import Precedence.Proofs.Engine.Equations
import Precedence.Proofs.Expression.Tree
import Precedence.Proofs.Grammar.Orderly
import Precedence.Proofs.Session.Step

/-!
Reading the tokens of a tree. While they are read, the loop over operators is entered once, at the
first token, and turns once for each operator of the left spine; so what is shown of a tree is where
reading its tokens leaves that loop, and not what the loop returns. Each construct has one lemma,
which takes the parts of the construct as read.
-/
namespace Precedence

open Session

namespace Grammar

variable {g : Grammar} {symbol : Symbol}

/-- A token that has a parselet starts an expression with it. -/
theorem startExpression_of_prefixFor? {e : Engine} {token : Token} {parselet : PrefixParselet}
    (hEnd : token.symbol ≠ .eof) (hInvalid : token.symbol ≠ .invalid)
    (h : g.prefixFor? token.symbol = some parselet) (s : Session) :
    g.startExpression e token s = e.parsePrefix parselet token s := by
  rw [startExpression, if_neg hEnd, if_neg hInvalid, h]

end Grammar

namespace Expression

variable {g : Grammar}

/-- An expression over a grammar starts with a token that has a parselet and is not the end. -/
theorem Over.tokens_eq_cons (hg : g.IsOrderly) : ∀ {x : Expression}, x.Over g →
    ∃ token later, x.tokens = token :: later ∧ (g.prefixFor? token.symbol).isSome ∧
      token.symbol ≠ .eof
  | .name token, ⟨hSymbol, hName⟩ => ⟨token, [], rfl, by simp [hSymbol, hName], by
      rw [hSymbol]
      decide⟩
  | .group opening _ _, ⟨hOpening, _⟩ =>
      ⟨opening, _, rfl, by simp [hOpening], (hg.ne_of_isOperator hOpening rfl).1⟩
  | .prefixed op _, ⟨⟨_, hOp⟩, _⟩ => ⟨op, _, rfl, by simp [hOp], (hg.ne_of_isOperator hOp rfl).1⟩
  | .postfixed _ _, ⟨_, hOperand⟩ => by
      obtain ⟨token, later, hTokens, hFirst⟩ := hOperand.tokens_eq_cons hg
      exact ⟨token, _, by rw [tokens, hTokens, List.cons_append], hFirst⟩
  | .binary _ _ _, ⟨_, hLeft, _⟩ => by
      obtain ⟨token, later, hTokens, hFirst⟩ := hLeft.tokens_eq_cons hg
      exact ⟨token, _, by rw [tokens, hTokens, List.cons_append], hFirst⟩
  | .ternary _ _ _ _ _, ⟨_, hCondition, _⟩ => by
      obtain ⟨token, later, hTokens, hFirst⟩ := hCondition.tokens_eq_cons hg
      exact ⟨token, _, by rw [tokens, hTokens, List.cons_append], hFirst⟩
  | .call _ _ _ _, ⟨_, hCallee⟩ => by
      obtain ⟨token, later, hTokens, hFirst⟩ := hCallee.tokens_eq_cons hg
      exact ⟨token, _, by rw [tokens, hTokens, List.cons_append], hFirst⟩

/-- What the tokens of an expression are in front of starts with none of the delimiters. -/
theorem Over.head_ne (hg : g.IsOrderly) {x : Expression} (hx : x.Over g) {closing : Symbol}
    (hClosing : g.prefixFor? closing = none) {coming rest : Stream' Token}
    (hComing : coming = x.tokens ++ₛ rest) :
    coming.head.symbol ≠ closing ∧ coming.head.symbol ≠ .eof := by
  obtain ⟨token, later, hTokens, hFirst, hEnd⟩ := hx.tokens_eq_cons hg
  rw [hComing, hTokens, Stream'.cons_append_stream, Stream'.head_cons]
  refine ⟨?_, hEnd⟩
  rintro rfl
  rw [hClosing] at hFirst
  cases hFirst

/-- There are fewer operators on the left spine than tokens. -/
theorem length_leftSpine_lt : ∀ x : Expression, x.leftSpine.length < x.tokens.length
  | .name _ => by simp [leftSpine, tokens]
  | .group _ _ _ => by simp [leftSpine, tokens]
  | .prefixed _ _ => by simp [leftSpine, tokens]
  | .postfixed operand _ => by
      have hOperand := operand.length_leftSpine_lt
      simp only [leftSpine, tokens, List.length_cons, List.length_append, List.length_nil]
      omega
  | .binary left _ _ => by
      have hLeft := left.length_leftSpine_lt
      simp only [leftSpine, tokens, List.length_cons, List.length_append]
      omega
  | .ternary condition _ _ _ _ => by
      have hCondition := condition.length_leftSpine_lt
      simp only [leftSpine, tokens, List.length_cons, List.length_append]
      omega
  | .call callee _ _ _ => by
      have hCallee := callee.length_leftSpine_lt
      simp only [leftSpine, tokens, List.length_cons, List.length_append]
      omega

/-- Every operator of a grammar binds more tightly than the lowest threshold. -/
theorem Over.isAbove_lowest (hg : g.IsOrderly) : ∀ {x : Expression}, x.Over g →
    x.IsAbove g .lowest
  | .name _, _ | .group _ _ _, _ | .prefixed _ _, _ => fun _ hOp => nomatch hOp
  | .postfixed _ _, ⟨hForm, hOperand⟩ =>
      List.forall_mem_cons.mpr ⟨hg.power_pos hForm, hOperand.isAbove_lowest hg⟩
  | .binary _ _ _, ⟨⟨_, hForm⟩, hLeft, _⟩ =>
      List.forall_mem_cons.mpr ⟨hg.power_pos hForm, hLeft.isAbove_lowest hg⟩
  | .ternary _ _ _ _ _, ⟨hForm, hCondition, _⟩ =>
      List.forall_mem_cons.mpr ⟨hg.power_pos hForm, hCondition.isAbove_lowest hg⟩
  | .call _ _ _ _, ⟨⟨_, hForm, _⟩, hCallee⟩ =>
      List.forall_mem_cons.mpr ⟨hg.power_pos hForm, hCallee.isAbove_lowest hg⟩

/-- No operator takes in what has the lowest power. -/
theorem stopsAt_lowest (x : Expression) : x.StopsAt g .lowest := fun _ _ => Nat.zero_le _

end Expression

/-! ### Sessions that read -/

/-- A session from which others have been reached by reading: the tokens given are left, nothing
has been reported, and nodes have only been added. -/
structure Session.Reaches (s : Session) (rest : Stream' Token) (t : Session) : Prop where
  source : t.source = s.source
  coming : t.coming = rest
  log : t.log = s.log
  arena : s.arena.Extends t.arena

namespace Session

variable {s t u : Session} {rest later : Stream' Token}

theorem Reaches.trans (h : s.Reaches rest t) (h' : t.Reaches later u) : s.Reaches later u :=
  ⟨h'.source.trans h.source, h'.coming, h'.log.trans h.log, h.arena.trans h'.arena⟩

theorem Reaches.isAt (h : s.Reaches rest t) {x : Expression} {id : NodeId}
    (hx : x.IsAt s.arena s.source id) : x.IsAt t.arena t.source id := by
  rw [h.source]
  exact hx.mono h.arena

theorem Continues.isAt (h : s.Continues t) {x : Expression} {id : NodeId}
    (hx : x.IsAt s.arena s.source id) : x.IsAt t.arena t.source id := by
  rw [h.source]
  exact hx.mono h.arena

theorem Reaches.areAt (h : s.Reaches rest t) {xs : Arguments} {ids : List NodeId}
    (hxs : xs.AreAt s.arena s.source ids) : xs.AreAt t.arena t.source ids := by
  rw [h.source]
  exact hxs.mono h.arena

theorem reaches_peeked (s : Session) : s.Reaches s.coming s.peeked :=
  ⟨s.source_peeked, s.coming_peeked, s.log_peeked, s.arena_peeked ▸ .refl s.arena⟩

theorem reaches_consume (s : Session) : s.Reaches s.coming.tail s.consume.2 :=
  ⟨s.source_consume, s.coming_consume, s.log_consume, s.arena_consume ▸ .refl s.arena⟩

theorem reaches_alloc (s : Session) (kind : NodeKind) (range : SourceRange) :
    s.Reaches s.coming (s.alloc kind range).2 :=
  ⟨rfl, rfl, rfl, s.arena.extends_alloc kind range⟩

theorem reaches_peeked_of (hComing : s.coming = rest) : s.Reaches rest s.peeked :=
  hComing ▸ s.reaches_peeked

/-- What is left when the next token, which is known, is consumed. -/
theorem reaches_consume_of {token : Token} (hComing : s.coming = .cons token rest) :
    s.Reaches rest s.consume.2 := by
  have hConsumed := s.reaches_consume
  rwa [hComing, Stream'.tail_cons] at hConsumed

theorem reaches_alloc_of (hComing : s.coming = rest) (kind : NodeKind) (range : SourceRange) :
    s.Reaches rest (s.alloc kind range).2 :=
  hComing ▸ s.reaches_alloc kind range

theorem reaches_nameNode (s : Session) (token : Token) :
    s.Reaches s.coming (s.nameNode token).2 :=
  ⟨rfl, rfl, rfl, (s.continues_nameNode token).arena⟩

theorem kind?_alloc_self (s : Session) (kind : NodeKind) (range : SourceRange) :
    (s.alloc kind range).2.arena.kind? (s.alloc kind range).1 = some kind :=
  s.arena.kind?_alloc_self kind range

/-- What a new node changes in a session. -/
theorem reaches_of_alloc {kind : NodeKind} {range : SourceRange} {id : NodeId}
    (h : some (s.alloc kind range) = some (id, t)) :
    s.Reaches s.coming t ∧ t.arena.kind? id = some kind ∧ t.diagnostics = s.diagnostics := by
  cases h
  exact ⟨s.reaches_alloc kind range, s.kind?_alloc_self kind range, rfl⟩

/-- A name gets a node with the text of its token. -/
theorem isAt_nameNode (s : Session) (token : Token) :
    (Expression.name token).IsAt (s.nameNode token).2.arena (s.nameNode token).2.source
      (s.nameNode token).1 := by
  refine ⟨(s.arena.internName (String.ofList (s.payload token))).1, ?_, ?_⟩
  · exact Arena.kind?_alloc_self _ _ _
  · exact (Arena.extends_alloc _ _ _).text? (Interning.text?_intern _ _)

end Session

namespace Grammar

variable {g : Grammar} {s t u : Session} {x : Expression} {id : NodeId} {rest : Stream' Token}

/-- Whatever bounds are high enough for the tokens of a tree, the parser returns the node. -/
def Returns (g : Grammar) (threshold : BindingPower) (x : Expression) (s : Session) (id : NodeId)
    (t : Session) : Prop :=
  ∀ rounds depth, x.tokens.length ≤ rounds → x.tokens.length ≤ depth →
    (g.engine rounds depth).expression threshold s = some (id, t)

/-- Whatever bounds are high enough for the tokens of a tree, the parser comes to the point at
which the node is the operand to go on from, with one turn of its loop taken for each operator of
the left spine. -/
def Leads (g : Grammar) (threshold : BindingPower) (x : Expression) (s : Session) (id : NodeId)
    (t : Session) : Prop :=
  ∀ rounds depth, x.tokens.length ≤ rounds → x.tokens.length ≤ depth + 1 →
    g.parseExpression (g.engine rounds depth) threshold s =
      g.continueExpression (g.engine rounds depth) threshold (rounds - x.leftSpine.length) id t

/-- The loop ends in front of a token that does not bind more tightly than the threshold. -/
theorem Leads.returns {threshold : BindingPower} (h : g.Leads threshold x s id t)
    (hNext : g.power t.coming.head.symbol ≤ threshold) : g.Returns threshold x s id t.peeked := by
  intro rounds depth hRounds hDepth
  have hSpine := x.length_leftSpine_lt
  obtain ⟨below, rfl⟩ := Nat.exists_eq_add_one.mpr (show 0 < depth by omega)
  obtain ⟨turns, hTurns⟩ := Nat.exists_eq_add_one.mpr
    (show 0 < rounds - x.leftSpine.length by omega)
  change g.parseExpression (g.engine rounds below) threshold s = _
  rw [h rounds below hRounds hDepth, hTurns, continueExpression_succ, if_pos hNext]

/-- What starts with a token leads to its node, if nothing goes on from it. -/
theorem leads_of_parsePrefix {threshold : BindingPower} {token : Token}
    {parselet : PrefixParselet} (hHead : s.coming.head = token) (hEnd : token.symbol ≠ .eof)
    (hInvalid : token.symbol ≠ .invalid) (hParselet : g.prefixFor? token.symbol = some parselet)
    (hSpine : x.leftSpine = [])
    (hParse : ∀ rounds depth, x.tokens.length ≤ rounds → x.tokens.length ≤ depth + 1 →
      (g.engine rounds depth).parsePrefix parselet token s.consume.2 = some (id, t)) :
    g.Leads threshold x s id t := by
  intro rounds depth hRounds hDepth
  rw [parseExpression_eq, hHead, startExpression_of_prefixFor? hEnd hInvalid hParselet,
    hParse rounds depth hRounds hDepth, Option.bind_some, rounds_engine, hSpine, List.length_nil,
    Nat.sub_zero]

/-- An operand that has been reached, and an operator behind it that binds more tightly than the
threshold, lead to the node of both. -/
theorem Leads.parseInfix {threshold : BindingPower} {operand : Expression} {op : Token}
    {form : InfixForm} {node : NodeId} (h : g.Leads threshold operand s id t)
    (hHead : t.coming.head = op) (hForm : g.formFor? op.symbol = some form)
    (hAbove : threshold < g.power op.symbol) (hSpine : x.leftSpine = op :: operand.leftSpine)
    (hTokens : operand.tokens.length < x.tokens.length)
    (hParse : ∀ rounds depth, x.tokens.length ≤ rounds → x.tokens.length ≤ depth + 1 →
      (g.engine rounds depth).parseInfix ⟨g.power op.symbol, form⟩ id op t.consume.2 =
        some (node, u)) :
    g.Leads threshold x s node u := by
  intro rounds depth hRounds hDepth
  have hOperators := x.length_leftSpine_lt
  rw [hSpine, List.length_cons] at hOperators
  obtain ⟨turns, hTurns⟩ := Nat.exists_eq_add_one.mpr
    (show 0 < rounds - operand.leftSpine.length by omega)
  rw [h rounds depth (by omega) (by omega), hTurns, continueExpression_succ, hHead,
    if_neg (Nat.not_le.mpr hAbove), infixFor?_of_formFor? hForm]
  change ((g.engine rounds depth).parseInfix _ id op t.consume.2).bind _ = _
  rw [hParse rounds depth hRounds hDepth, Option.bind_some, hSpine, List.length_cons]
  congr 1
  omega

/-! ### Trees that are read back -/

/-- The parser comes to a node that is the tree, and has the rest before it. -/
def Reads (g : Grammar) (threshold : BindingPower) (x : Expression) (s : Session)
    (rest : Stream' Token) : Prop :=
  ∃ id t, s.Reaches rest t ∧ x.IsAt t.arena t.source id ∧ g.Leads threshold x s id t

/-- The parser returns a node that is the tree, and has the rest before it. -/
def Parses (g : Grammar) (threshold : BindingPower) (x : Expression) (s : Session)
    (rest : Stream' Token) : Prop :=
  ∃ id t, s.Reaches rest t ∧ x.IsAt t.arena t.source id ∧ g.Returns threshold x s id t

/-- The rest of a call is read up to its closing token, which is consumed. -/
def ParsesArguments (g : Grammar) (closing separator : Symbol) (xs : Arguments) (s : Session)
    (rest : Stream' Token) : Prop :=
  ∃ ids t, s.Reaches rest t ∧ xs.AreAt t.arena t.source ids ∧
    ∀ rounds depth turns items, xs.tokens.length < turns → xs.tokens.length ≤ rounds →
      xs.tokens.length ≤ depth →
      (g.engine rounds depth).separatedFrom separator closing .lowest turns items s =
        some (items.reverse ++ ids, t)

variable {threshold : BindingPower} {operand left right : Expression} {op : Token}

theorem Reads.parses (h : g.Reads threshold x s rest)
    (hNext : g.power rest.head.symbol ≤ threshold) : g.Parses threshold x s rest := by
  obtain ⟨id, t, hReach, hAt, hLeads⟩ := h
  have hPeeked := reaches_peeked_of hReach.coming
  refine ⟨id, t.peeked, hReach.trans hPeeked, hPeeked.isAt hAt, hLeads.returns ?_⟩
  rw [hReach.coming]
  exact hNext

theorem reads_name {token : Token} (hHead : s.coming.head = token)
    (hOver : (Expression.name token).Over g) : g.Reads threshold (.name token) s s.coming.tail := by
  obtain ⟨hSymbol, hName⟩ := hOver
  have hConsumed := s.reaches_consume
  have hNode := s.consume.2.reaches_nameNode token
  rw [hConsumed.coming] at hNode
  refine ⟨_, _, hConsumed.trans hNode, s.consume.2.isAt_nameNode token, ?_⟩
  refine leads_of_parsePrefix hHead ?_ ?_ (hSymbol ▸ hName) rfl fun _ _ _ _ => rfl
  · rw [hSymbol]
    decide
  · rw [hSymbol]
    decide

theorem reads_prefixed (hg : g.IsOrderly) (hHead : s.coming.head = op) {power : BindingPower}
    (hOp : g.prefixFor? op.symbol = some (.operator power))
    (hOperand : g.Parses (g.operandPower op.symbol) operand s.consume.2 rest) :
    g.Reads threshold (.prefixed op operand) s rest := by
  obtain ⟨y, u, hReach, hAt, hReturns⟩ := hOperand
  rw [operandPower_of_prefixFor? hOp] at hReturns
  have hNode := reaches_alloc_of hReach.coming (.prefixed op.symbol y) (u.rangeFrom op.range)
  obtain ⟨hEnd, hInvalid⟩ := hg.ne_of_isOperator hOp rfl
  refine ⟨_, _, (s.reaches_consume.trans hReach).trans hNode,
    ⟨y, u.kind?_alloc_self _ _, hNode.isAt hAt⟩,
    leads_of_parsePrefix hHead hEnd hInvalid hOp rfl ?_⟩
  intro rounds depth hRounds hDepth
  simp only [Expression.tokens, List.length_cons] at hRounds hDepth
  simp only [Engine.parsePrefix, Engine.prefixOperator,
    hReturns rounds depth (by omega) (by omega)]
  rfl

theorem reads_group (hg : g.IsOrderly) {opening closing : Token} {inner : Expression}
    (hHead : s.coming.head = opening)
    (hOpening : g.prefixFor? opening.symbol = some (.group closing.symbol none true))
    (hInner : g.Parses .lowest inner s.consume.2 (.cons closing rest)) :
    g.Reads threshold (.group opening inner closing) s rest := by
  obtain ⟨y, u, hReach, hAt, hReturns⟩ := hInner
  have hClosed := reaches_consume_of hReach.coming
  have hNode :=
    reaches_alloc_of hClosed.coming (.group y) (u.consume.2.rangeFrom opening.range)
  obtain ⟨hEnd, hInvalid⟩ := hg.ne_of_isOperator hOpening rfl
  refine ⟨_, _, (s.reaches_consume.trans hReach).trans (hClosed.trans hNode),
    ⟨y, u.consume.2.kind?_alloc_self _ _, hNode.isAt (hClosed.isAt hAt)⟩,
    leads_of_parsePrefix hHead hEnd hInvalid hOpening rfl ?_⟩
  intro rounds depth hRounds hDepth
  simp only [Expression.tokens, List.length_cons, List.length_append] at hRounds hDepth
  simp only [Engine.parsePrefix, Engine.group, Engine.enclosed,
    hReturns rounds depth (by omega) (by omega)]
  simp [Engine.closeGroup, expect_eq, hReach.coming]

theorem reads_postfixed (hForm : g.formFor? op.symbol = some .postfixed)
    (hAbove : threshold < g.power op.symbol)
    (hOperand : g.Reads threshold operand s (.cons op rest)) :
    g.Reads threshold (.postfixed operand op) s rest := by
  obtain ⟨y, u, hReach, hAt, hLeads⟩ := hOperand
  have hRead := reaches_consume_of hReach.coming
  have hNode := reaches_alloc_of hRead.coming (.postfixed op.symbol y)
    (u.consume.2.rangeFrom (u.consume.2.nodeRange y))
  refine ⟨_, _, (hReach.trans hRead).trans hNode,
    ⟨y, u.consume.2.kind?_alloc_self _ _, hNode.isAt (hRead.isAt hAt)⟩,
    hLeads.parseInfix (by rw [hReach.coming, Stream'.head_cons]) hForm hAbove rfl ?_
      fun _ _ _ _ => rfl⟩
  simp [Expression.tokens]

theorem reads_binary {associativity : Associativity}
    (hForm : g.formFor? op.symbol = some (.binary associativity))
    (hAbove : threshold < g.power op.symbol) (later : Stream' Token)
    (hLeft : g.Reads threshold left s (.cons op later))
    (hRight : ∀ t : Session, t.coming = later → g.Parses (g.threshold op.symbol) right t rest) :
    g.Reads threshold (.binary left op right) s rest := by
  obtain ⟨y, u, hReach, hAt, hLeads⟩ := hLeft
  have hRead := reaches_consume_of hReach.coming
  obtain ⟨z, v, hReach', hAt', hReturns⟩ := hRight _ hRead.coming
  rw [threshold_of_formFor? hForm] at hReturns
  have hNode :=
    reaches_alloc_of hReach'.coming (.binary y op.symbol z) (v.rangeFrom (v.nodeRange y))
  refine ⟨_, _, ((hReach.trans hRead).trans hReach').trans hNode,
    ⟨y, z, v.kind?_alloc_self _ _, hNode.isAt (hReach'.isAt (hRead.isAt hAt)), hNode.isAt hAt'⟩,
    hLeads.parseInfix (by rw [hReach.coming, Stream'.head_cons]) hForm hAbove rfl ?_ ?_⟩
  · simp [Expression.tokens]
  · intro rounds depth hRounds hDepth
    simp only [Expression.tokens, List.length_cons, List.length_append] at hRounds hDepth
    simp only [InfixParselet.threshold] at hReturns
    simp only [Engine.parseInfix, Engine.binaryOperator,
      hReturns rounds depth (by omega) (by omega)]
    rfl

theorem reads_ternary {first second : Token} {condition thenBranch elseBranch : Expression}
    (hForm : g.formFor? first.symbol = some (.ternary second.symbol))
    (hAbove : threshold < g.power first.symbol) (later later' : Stream' Token)
    (hCondition : g.Reads threshold condition s (.cons first later))
    (hThen : ∀ t : Session, t.coming = later → g.Parses .lowest thenBranch t (.cons second later'))
    (hElse : ∀ t : Session, t.coming = later' →
      g.Parses (g.threshold first.symbol) elseBranch t rest) :
    g.Reads threshold (.ternary condition first thenBranch second elseBranch) s rest := by
  obtain ⟨x, t, hReach, hAt, hLeads⟩ := hCondition
  have hFirst := reaches_consume_of hReach.coming
  obtain ⟨y, u, hReachThen, hAtThen, hReturnsThen⟩ := hThen _ hFirst.coming
  have hSecond := reaches_consume_of hReachThen.coming
  obtain ⟨z, v, hReachElse, hAtElse, hReturnsElse⟩ := hElse _ hSecond.coming
  rw [threshold_of_formFor? hForm] at hReturnsElse
  have hNode :=
    reaches_alloc_of hReachElse.coming (.ternary x y z) (v.rangeFrom (v.nodeRange x))
  have hBranches := hSecond.trans (hReachElse.trans hNode)
  refine ⟨_, _, (hReach.trans hFirst).trans (hReachThen.trans hBranches),
    ⟨x, y, z, v.kind?_alloc_self _ _,
      hBranches.isAt (hReachThen.isAt (hFirst.isAt hAt)), hBranches.isAt hAtThen,
      hNode.isAt hAtElse⟩,
    hLeads.parseInfix (by rw [hReach.coming, Stream'.head_cons]) hForm hAbove rfl ?_ ?_⟩
  · simp [Expression.tokens]
  · intro rounds depth hRounds hDepth
    simp only [Expression.tokens, List.length_cons, List.length_append] at hRounds hDepth
    simp only [InfixParselet.threshold] at hReturnsElse
    simp only [Engine.parseInfix, Engine.ternary,
      hReturnsThen rounds depth (by omega) (by omega)]
    simp [expect_eq, hReachThen.coming, hReturnsElse rounds depth (by omega) (by omega)]

theorem reads_call {callee : Expression} {opening closing : Token} {args : Arguments}
    {separator : Symbol} (hForm : g.formFor? opening.symbol = some (.call closing.symbol separator))
    (hAbove : threshold < g.power opening.symbol) (later : Stream' Token)
    (hCallee : g.Reads threshold callee s (.cons opening later))
    (hArgs : ∀ t : Session, t.coming = later →
      g.ParsesArguments closing.symbol separator args t rest) :
    g.Reads threshold (.call callee opening args closing) s rest := by
  obtain ⟨x, t, hReach, hAt, hLeads⟩ := hCallee
  have hOpening := reaches_consume_of hReach.coming
  obtain ⟨ids, u, hReach', hAtArgs, hSeparated⟩ := hArgs _ hOpening.coming
  have hNode := reaches_alloc_of hReach'.coming (.call x ids) (u.rangeFrom (u.nodeRange x))
  refine ⟨_, _, (hReach.trans hOpening).trans (hReach'.trans hNode),
    ⟨x, ids, u.kind?_alloc_self _ _, hNode.isAt (hReach'.isAt (hOpening.isAt hAt)),
      hNode.areAt hAtArgs⟩,
    hLeads.parseInfix (by rw [hReach.coming, Stream'.head_cons]) hForm hAbove rfl ?_ ?_⟩
  · simp [Expression.tokens]
  · intro rounds depth hRounds hDepth
    simp only [Expression.tokens, List.length_cons, List.length_append] at hRounds hDepth
    simp only [Engine.parseInfix, Engine.call, Engine.separated, rounds_engine,
      hSeparated rounds depth rounds [] (by omega) (by omega) (by omega)]
    rfl

/-! ### Arguments that are read back -/

theorem parsesArguments_none {closing : Token} {separator : Symbol}
    (hHead : s.coming.head = closing) :
    g.ParsesArguments closing.symbol separator .none s s.coming.tail := by
  refine ⟨[], _, s.reaches_consume, rfl, ?_⟩
  intro rounds depth turns items hTurns _ _
  obtain ⟨turns, rfl⟩ := Nat.exists_eq_add_one.mpr (Nat.zero_lt_of_lt hTurns)
  rw [Engine.separatedFrom_succ, hHead, if_pos rfl, List.append_nil]

variable {arg : Expression} {closing : Token} {separator : Symbol}

theorem parsesArguments_last (hClosing : s.coming.head.symbol ≠ closing.symbol)
    (hEnd : s.coming.head.symbol ≠ .eof) (hSeparator : closing.symbol ≠ separator)
    (hArg : g.Parses .lowest arg s.peeked (.cons closing rest)) :
    g.ParsesArguments closing.symbol separator (.last arg) s rest := by
  obtain ⟨y, u, hReach, hAt, hReturns⟩ := hArg
  have hClosed := reaches_consume_of hReach.coming
  refine ⟨[y], _, (s.reaches_peeked.trans hReach).trans hClosed, ⟨y, rfl, hClosed.isAt hAt⟩, ?_⟩
  intro rounds depth turns items hTurns hRounds hDepth
  obtain ⟨turns, rfl⟩ := Nat.exists_eq_add_one.mpr (Nat.zero_lt_of_lt hTurns)
  rw [Arguments.tokens] at hRounds hDepth
  rw [Engine.separatedFrom_succ, if_neg hClosing, if_neg hEnd, hReturns rounds depth hRounds hDepth,
    Option.bind_some, hReach.coming, Stream'.head_cons, if_neg hSeparator]
  simp [expect_eq, hReach.coming]

theorem parsesArguments_more {token : Token} {xs : Arguments}
    (hClosing : s.coming.head.symbol ≠ closing.symbol) (hEnd : s.coming.head.symbol ≠ .eof)
    (later : Stream' Token) (hArg : g.Parses .lowest arg s.peeked (.cons token later))
    (hRest : ∀ t : Session, t.coming = later →
      g.ParsesArguments closing.symbol token.symbol xs t rest) :
    g.ParsesArguments closing.symbol token.symbol (.more arg token xs) s rest := by
  obtain ⟨y, u, hReach, hAt, hReturns⟩ := hArg
  have hGoesOn := reaches_consume_of hReach.coming
  obtain ⟨ids, v, hReach', hAtRest, hSeparated⟩ := hRest _ hGoesOn.coming
  refine ⟨y :: ids, v, ((s.reaches_peeked.trans hReach).trans hGoesOn).trans hReach',
    ⟨y, ids, rfl, hReach'.isAt (hGoesOn.isAt hAt), hAtRest⟩, ?_⟩
  intro rounds depth turns items hTurns hRounds hDepth
  obtain ⟨turns, rfl⟩ := Nat.exists_eq_add_one.mpr (Nat.zero_lt_of_lt hTurns)
  simp only [Arguments.tokens, List.length_append, List.length_cons] at hTurns hRounds hDepth
  rw [Engine.separatedFrom_succ, if_neg hClosing, if_neg hEnd,
    hReturns rounds depth (by omega) (by omega), Option.bind_some, hReach.coming,
    Stream'.head_cons, if_pos rfl,
    hSeparated rounds depth turns (y :: items) (by omega) (by omega) (by omega),
    List.reverse_cons, List.append_assoc, List.singleton_append]

end Grammar

end Precedence
