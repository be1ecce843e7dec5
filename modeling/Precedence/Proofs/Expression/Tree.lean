import Precedence.Proofs.Arena.Growth
import Precedence.Proofs.Grammar.Parselets

/-!
Expressions as trees that keep the tokens they are written with. Such a tree can be written down
again, and it says by itself whether a grammar would read it back: each operand has to hold against
the operators on its left and on its right. Nothing here mentions how expressions are parsed.
-/
namespace Precedence

mutual

/-- An expression over names and operators, with its tokens. -/
inductive Expression where
  | name (token : Token)
  | group (opening : Token) (inner : Expression) (closing : Token)
  | prefixed (op : Token) (operand : Expression)
  | postfixed (operand : Expression) (op : Token)
  | binary (left : Expression) (op : Token) (right : Expression)
  | ternary (condition : Expression) (first : Token) (thenBranch : Expression) (second : Token)
      (elseBranch : Expression)
  | call (callee : Expression) (opening : Token) (args : Arguments) (closing : Token)

/-- The arguments of a call, with the separators between them. One may stand behind the last. -/
inductive Arguments where
  | none
  | last (arg : Expression)
  | more (arg : Expression) (separator : Token) (rest : Arguments)

end

mutual

/-- The tokens of an expression in the order in which they are written. -/
def Expression.tokens : Expression → List Token
  | .name token => [token]
  | .group opening inner closing => opening :: (inner.tokens ++ [closing])
  | .prefixed op operand => op :: operand.tokens
  | .postfixed operand op => operand.tokens ++ [op]
  | .binary left op right => left.tokens ++ op :: right.tokens
  | .ternary condition first thenBranch second elseBranch =>
    condition.tokens ++ first :: (thenBranch.tokens ++ second :: elseBranch.tokens)
  | .call callee opening args closing =>
    callee.tokens ++ opening :: (args.tokens ++ [closing])

/-- The tokens of arguments in the order in which they are written. -/
def Arguments.tokens : Arguments → List Token
  | .none => []
  | .last arg => arg.tokens
  | .more arg separator rest => arg.tokens ++ separator :: rest.tokens

end

/-! ### Trees over a grammar -/

mutual

/-- Every token has the symbol of a parselet of the grammar that makes a node of its kind. Groups
leave a node of their own, and take no separator. -/
def Expression.Over (g : Grammar) : Expression → Prop
  | .name token => token.symbol = .name ∧ g.prefixFor? .name = some .name
  | .group opening inner closing =>
    g.prefixFor? opening.symbol = some (.group closing.symbol none true) ∧ inner.Over g
  | .prefixed op operand =>
    (∃ power, g.prefixFor? op.symbol = some (.operator power)) ∧ operand.Over g
  | .postfixed operand op => g.formFor? op.symbol = some .postfixed ∧ operand.Over g
  | .binary left op right =>
    (∃ associativity, g.formFor? op.symbol = some (.binary associativity)) ∧ left.Over g ∧
      right.Over g
  | .ternary condition first thenBranch second elseBranch =>
    g.formFor? first.symbol = some (.ternary second.symbol) ∧ condition.Over g ∧
      thenBranch.Over g ∧ elseBranch.Over g
  | .call callee opening args closing =>
    (∃ separator, g.formFor? opening.symbol = some (.call closing.symbol separator) ∧
      args.Over g separator) ∧ callee.Over g

/-- Every argument is an expression of the grammar, and every separator has the symbol given. -/
def Arguments.Over (g : Grammar) (separator : Symbol) : Arguments → Prop
  | .none => True
  | .last arg => arg.Over g
  | .more arg token rest => token.symbol = separator ∧ arg.Over g ∧ rest.Over g separator

end

namespace Expression

/-- The operators that go on from the front of an expression, the last of them first. -/
def leftSpine : Expression → List Token
  | .name _ | .group _ _ _ | .prefixed _ _ => []
  | .postfixed operand op => op :: operand.leftSpine
  | .binary left op _ => op :: left.leftSpine
  | .ternary condition first _ _ _ => first :: condition.leftSpine
  | .call callee opening _ _ => opening :: callee.leftSpine

/-- The thresholds of the operators whose last operand reaches to the end of an expression, the
outermost first. -/
def rightSpine (g : Grammar) : Expression → List BindingPower
  | .name _ | .group _ _ _ | .postfixed _ _ | .call _ _ _ _ => []
  | .prefixed op operand => g.operandPower op.symbol :: operand.rightSpine g
  | .binary _ op right => g.threshold op.symbol :: right.rightSpine g
  | .ternary _ first _ _ elseBranch => g.threshold first.symbol :: elseBranch.rightSpine g

/-- The operators on the left spine bind more tightly than a threshold. -/
def IsAbove (g : Grammar) (threshold : BindingPower) (x : Expression) : Prop :=
  ∀ op ∈ x.leftSpine, threshold < g.power op.symbol

/-- No operator on the right spine lets one of the given power into its operand. -/
def StopsAt (g : Grammar) (power : BindingPower) (x : Expression) : Prop :=
  ∀ threshold ∈ x.rightSpine g, power ≤ threshold

instance (g : Grammar) (threshold : BindingPower) (x : Expression) :
    Decidable (x.IsAbove g threshold) :=
  inferInstanceAs (Decidable (∀ op ∈ x.leftSpine, threshold < g.power op.symbol))

instance (g : Grammar) (power : BindingPower) (x : Expression) : Decidable (x.StopsAt g power) :=
  inferInstanceAs (Decidable (∀ threshold ∈ x.rightSpine g, power ≤ threshold))

end Expression

mutual

/-- The tree is the one that precedence asks for: an operand with a threshold has only operators
above it on its left spine, and the operand that an operator goes on from has no operator on its
right spine that would have taken that operator in. -/
def Expression.IsCorrect (g : Grammar) : Expression → Prop
  | .name _ => True
  | .group _ inner _ => inner.IsCorrect g
  | .prefixed op operand =>
    operand.IsAbove g (g.operandPower op.symbol) ∧ operand.IsCorrect g
  | .postfixed operand op => operand.StopsAt g (g.power op.symbol) ∧ operand.IsCorrect g
  | .binary left op right =>
    left.StopsAt g (g.power op.symbol) ∧ right.IsAbove g (g.threshold op.symbol) ∧
      left.IsCorrect g ∧ right.IsCorrect g
  | .ternary condition first thenBranch _ elseBranch =>
    condition.StopsAt g (g.power first.symbol) ∧
      elseBranch.IsAbove g (g.threshold first.symbol) ∧
      condition.IsCorrect g ∧ thenBranch.IsCorrect g ∧ elseBranch.IsCorrect g
  | .call callee opening args _ =>
    callee.StopsAt g (g.power opening.symbol) ∧ callee.IsCorrect g ∧ args.AreCorrect g

/-- Every argument is the tree that precedence asks for. -/
def Arguments.AreCorrect (g : Grammar) : Arguments → Prop
  | .none => True
  | .last arg => arg.IsCorrect g
  | .more arg _ rest => arg.IsCorrect g ∧ rest.AreCorrect g

end

mutual

/-- Whether a tree is the one that precedence asks for can be computed. -/
def Expression.decideIsCorrect (g : Grammar) : ∀ x : Expression, Decidable (x.IsCorrect g)
  | .name _ => inferInstanceAs (Decidable True)
  | .group _ inner _ => inner.decideIsCorrect g
  | .prefixed op operand =>
    have := operand.decideIsCorrect g
    inferInstanceAs (Decidable (operand.IsAbove g (g.operandPower op.symbol) ∧ _))
  | .postfixed operand op =>
    have := operand.decideIsCorrect g
    inferInstanceAs (Decidable (operand.StopsAt g (g.power op.symbol) ∧ _))
  | .binary left op right =>
    have := left.decideIsCorrect g
    have := right.decideIsCorrect g
    inferInstanceAs (Decidable (left.StopsAt g (g.power op.symbol) ∧
      right.IsAbove g (g.threshold op.symbol) ∧ _ ∧ _))
  | .ternary condition first thenBranch _ elseBranch =>
    have := condition.decideIsCorrect g
    have := thenBranch.decideIsCorrect g
    have := elseBranch.decideIsCorrect g
    inferInstanceAs (Decidable (condition.StopsAt g (g.power first.symbol) ∧
      elseBranch.IsAbove g (g.threshold first.symbol) ∧ _ ∧ _ ∧ _))
  | .call callee opening args _ =>
    have := callee.decideIsCorrect g
    have := args.decideAreCorrect g
    inferInstanceAs (Decidable (callee.StopsAt g (g.power opening.symbol) ∧ _ ∧ _))

/-- Whether arguments are the trees that precedence asks for can be computed. -/
def Arguments.decideAreCorrect (g : Grammar) : ∀ xs : Arguments, Decidable (xs.AreCorrect g)
  | .none => inferInstanceAs (Decidable True)
  | .last arg => arg.decideIsCorrect g
  | .more arg _ rest =>
    have := arg.decideIsCorrect g
    have := rest.decideAreCorrect g
    inferInstanceAs (Decidable (_ ∧ _))

end

instance (g : Grammar) (x : Expression) : Decidable (x.IsCorrect g) := x.decideIsCorrect g

mutual

/-- A node is the expression: it has the shape and the symbols of the tree, and so have the nodes
below it. A name has the text that its token has in the source. -/
def Expression.IsAt (a : Arena) (source : List Char) : Expression → NodeId → Prop
  | .name token, id => ∃ n, a.kind? id = some (.name n) ∧
      a.names.text? n.index = some (String.ofList (token.payload source))
  | .group _ inner _, id => ∃ x, a.kind? id = some (.group x) ∧ inner.IsAt a source x
  | .prefixed op operand, id =>
    ∃ x, a.kind? id = some (.prefixed op.symbol x) ∧ operand.IsAt a source x
  | .postfixed operand op, id =>
    ∃ x, a.kind? id = some (.postfixed op.symbol x) ∧ operand.IsAt a source x
  | .binary left op right, id =>
    ∃ x y, a.kind? id = some (.binary x op.symbol y) ∧ left.IsAt a source x ∧
      right.IsAt a source y
  | .ternary condition _ thenBranch _ elseBranch, id =>
    ∃ x y z, a.kind? id = some (.ternary x y z) ∧ condition.IsAt a source x ∧
      thenBranch.IsAt a source y ∧ elseBranch.IsAt a source z
  | .call callee _ args _, id =>
    ∃ x ids, a.kind? id = some (.call x ids) ∧ callee.IsAt a source x ∧ args.AreAt a source ids

/-- Nodes are the arguments, one for each and in order. -/
def Arguments.AreAt (a : Arena) (source : List Char) : Arguments → List NodeId → Prop
  | .none, ids => ids = []
  | .last arg, ids => ∃ x, ids = [x] ∧ arg.IsAt a source x
  | .more arg _ rest, ids =>
    ∃ x later, ids = x :: later ∧ arg.IsAt a source x ∧ rest.AreAt a source later

end

mutual

/-- A node that is an expression stays it while the arena grows. -/
theorem Expression.IsAt.mono {a b : Arena} {source : List Char} (hGrows : a.Extends b) :
    ∀ {x : Expression} {id : NodeId}, x.IsAt a source id → x.IsAt b source id
  | .name _, _, ⟨n, hKind, hText⟩ =>
      ⟨n, hGrows.kind hKind, hGrows.text? hText⟩
  | .group _ _ _, _, ⟨x, hKind, hInner⟩ => ⟨x, hGrows.kind hKind, hInner.mono hGrows⟩
  | .prefixed _ _, _, ⟨x, hKind, hOperand⟩ => ⟨x, hGrows.kind hKind, hOperand.mono hGrows⟩
  | .postfixed _ _, _, ⟨x, hKind, hOperand⟩ => ⟨x, hGrows.kind hKind, hOperand.mono hGrows⟩
  | .binary _ _ _, _, ⟨x, y, hKind, hLeft, hRight⟩ =>
      ⟨x, y, hGrows.kind hKind, hLeft.mono hGrows, hRight.mono hGrows⟩
  | .ternary _ _ _ _ _, _, ⟨x, y, z, hKind, hCondition, hThen, hElse⟩ =>
      ⟨x, y, z, hGrows.kind hKind, hCondition.mono hGrows, hThen.mono hGrows, hElse.mono hGrows⟩
  | .call _ _ _ _, _, ⟨x, ids, hKind, hCallee, hArgs⟩ =>
      ⟨x, ids, hGrows.kind hKind, hCallee.mono hGrows, hArgs.mono hGrows⟩

theorem Arguments.AreAt.mono {a b : Arena} {source : List Char} (hGrows : a.Extends b) :
    ∀ {xs : Arguments} {ids : List NodeId}, xs.AreAt a source ids → xs.AreAt b source ids
  | .none, _, hNone => hNone
  | .last _, _, ⟨x, hIds, hArg⟩ => ⟨x, hIds, hArg.mono hGrows⟩
  | .more _ _ _, _, ⟨x, later, hIds, hArg, hRest⟩ =>
      ⟨x, later, hIds, hArg.mono hGrows, hRest.mono hGrows⟩

end

end Precedence
