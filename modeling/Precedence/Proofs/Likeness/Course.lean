import Precedence.Proofs.Arena.Shape
import Precedence.Proofs.Engine.Run

/-!
Two parses side by side. All that the library's constructs read of a token is its kind and its text,
so two sessions in which the same is read make the same trees, whatever was parsed before. They may
also part where the first comes to its end: then the second goes on with tokens of its own, and the
trees are the same as long as the first does not miss an operand there.
-/
namespace Precedence

open Session

/-- What is read of a token: its kind and its text. -/
structure Word where
  symbol : Symbol
  text : List Char
deriving DecidableEq

/-- What is read of a token of a source. -/
def Token.word (source : List Char) (token : Token) : Word :=
  ⟨token.symbol, token.payload source⟩

@[simp] theorem Token.symbol_word (source : List Char) (token : Token) :
    (token.word source).symbol = token.symbol := rfl

namespace Session

/-- What is read of the tokens still to come. -/
def words (s : Session) : Stream' Word := s.coming.map (Token.word s.source)

section

variable (s : Session)

@[simp] theorem head_words : s.words.head = s.coming.head.word s.source := rfl

theorem words_of_eq {s t : Session} (hSource : t.source = s.source)
    (hComing : t.coming = s.coming) : t.words = s.words := by
  rw [words, words, hSource, hComing]

@[simp] theorem words_peeked : s.peeked.words = s.words :=
  words_of_eq s.source_peeked s.coming_peeked

@[simp] theorem words_consume : s.consume.2.words = s.words.tail := by
  rw [words, source_consume, coming_consume, words, Stream'.tail_map]

end

/-- The end of the input has nowhere been found in the place of an operand. The wording of that
fault names no symbol, so it does not depend on their table. -/
def HasOperands (s : Session) : Prop :=
  ∀ m ∈ s.diagnostics.toList, m ≠ SyntaxFault.expectedExpression.message .initial m.range

instance (s : Session) : Decidable s.HasOperands :=
  inferInstanceAs (Decidable (∀ m ∈ s.diagnostics.toList,
    m ≠ SyntaxFault.expectedExpression.message .initial m.range))

theorem hasOperands_of_quiet {s : Session} (h : s.diagnostics.toList = []) : s.HasOperands := by
  intro m hMem
  rw [h] at hMem
  cases hMem

theorem HasOperands.of_continues {s t : Session} (h : t.HasOperands) (hContinues : s.Continues t) :
    s.HasOperands :=
  fun m hMem => h m (hContinues.reported.subset hMem)

end Session

/-! ### Courses -/

/-- Sequences that a relation relates are read alike, from the first to the last. -/
def IsSteady (R : Stream' Word → Stream' Word → Prop) : Prop :=
  ∀ ⦃x y : Stream' Word⦄, R x y → x.head = y.head ∧ R x.tail y.tail

/-- Equal sequences are read alike. -/
theorem isSteady_eq : IsSteady Eq := by
  rintro x _ rfl
  exact ⟨rfl, rfl⟩

/-- Whether the parselet parses up to a closing symbol. -/
def PrefixParselet.opens : PrefixParselet → Bool
  | .group _ _ _ | .block _ _ _ => true
  | _ => false

/-- Whether the parselet parses up to a closing symbol. -/
def InfixForm.opens : InfixForm → Bool
  | .call _ _ => true
  | _ => false

namespace Grammar

/-- Whether a symbol opens a group, a tuple, a block or a call. -/
def opens (g : Grammar) (symbol : Symbol) : Bool :=
  (g.prefixFor? symbol).any (·.opens) || (g.formFor? symbol).any (·.opens)

theorem opens_of_prefixFor? {g : Grammar} {symbol : Symbol} {parselet : PrefixParselet}
    (h : g.prefixFor? symbol = some parselet) (hClosed : g.opens symbol = false) :
    parselet.opens = false := by
  rw [opens, h, Option.any_some, Bool.or_eq_false_iff] at hClosed
  exact hClosed.1

theorem opens_of_infixFor? {g : Grammar} {symbol : Symbol} {parselet : InfixParselet}
    (h : g.infixFor? symbol = some parselet) (hClosed : g.opens symbol = false) :
    parselet.form.opens = false := by
  rw [opens, formFor?_of_infixFor? h, Option.any_some, Bool.or_eq_false_iff] at hClosed
  exact hClosed.2

/-- Sequences that a relation relates are read alike up to a place where the first of them has
ended and neither goes on with an operator. Where they may part like this, nothing is opened
before. -/
def IsCourse (g : Grammar) (R : Stream' Word → Stream' Word → Prop) : Prop :=
  ∀ ⦃x y : Stream' Word⦄, R x y →
    (x.head = y.head ∧ R x.tail y.tail ∧ (IsSteady R ∨ g.opens x.head.symbol = false)) ∨
    ((∀ k, (x.get k).symbol = .eof) ∧ g.power .eof = .lowest ∧ g.power y.head.symbol = .lowest)

theorem isCourse_of_isSteady (g : Grammar) {R : Stream' Word → Stream' Word → Prop}
    (h : IsSteady R) : g.IsCourse R := by
  intro x y hRelated
  obtain ⟨hHead, hTail⟩ := h hRelated
  exact .inl ⟨hHead, hTail, .inl h⟩

end Grammar

/-! ### Results -/

/-- Whenever the first parser has a result and no operand is missing, the second has a result that
belongs to it. -/
def Mirrors {α β : Type} (Q : α × Session → β × Session → Prop) (x : Option (α × Session))
    (y : Option (β × Session)) : Prop :=
  ∀ r, x = some r → r.2.HasOperands → ∃ r', y = some r' ∧ Q r r'

namespace Mirrors

variable {α β γ δ : Type} {Q : α × Session → β × Session → Prop}
  {Q' : γ × Session → δ × Session → Prop} {x : Option (α × Session)} {y : Option (β × Session)}

theorem none : Mirrors Q .none y := by
  intro r h
  cases h

theorem some {r : α × Session} {r' : β × Session} (h : Q r r') :
    Mirrors Q (.some r) (.some r') := by
  intro _ hSame _
  cases hSame
  exact ⟨r', rfl, h⟩

/-- A parser that always misses an operand. -/
theorem of_lacks (h : ∀ r, x = Option.some r → ¬r.2.HasOperands) : Mirrors Q x y := by
  intro r hResult hOperands
  exact absurd hOperands (h r hResult)

/-- One parser after another. What the second goes on from has no operand missing if its own result
has none. -/
theorem bind {f : α × Session → Option (γ × Session)} {f' : β × Session → Option (δ × Session)}
    (h : Mirrors Q x y) (hContinues : ∀ {r v}, f r = Option.some v → r.2.Continues v.2)
    (hNext : ∀ {r r'}, Q r r' → Mirrors Q' (f r) (f' r')) : Mirrors Q' (x.bind f) (y.bind f') := by
  intro v hResult hOperands
  obtain ⟨r, hFirst, hLast⟩ := Option.bind_eq_some_iff.mp hResult
  obtain ⟨r', hFirst', hQ⟩ := h r hFirst (hOperands.of_continues (hContinues hLast))
  rw [hFirst', Option.bind_some]
  exact hNext hQ v hLast hOperands

theorem after {x y : Option Session} {f : Session → Option (α × Session)}
    {f' : Session → Option (β × Session)}
    (h : ∀ t, x = Option.some t → ∃ t', y = Option.some t' ∧ Mirrors Q (f t) (f' t')) :
    Mirrors Q (x.bind f) (y.bind f') := by
  intro v hResult hOperands
  obtain ⟨t, hFirst, hLast⟩ := Option.bind_eq_some_iff.mp hResult
  obtain ⟨t', hFirst', hNext⟩ := h t hFirst
  rw [hFirst', Option.bind_some]
  exact hNext v hLast hOperands

/-- A choice that both make alike. -/
theorem ite {x' : Option (α × Session)} {y' : Option (β × Session)} {c : Prop} [Decidable c]
    (h : c → Mirrors Q x y) (h' : ¬c → Mirrors Q x' y') :
    Mirrors Q (if c then x else x') (if c then y else y') := by
  split
  · next hTrue => exact h hTrue
  · next hFalse => exact h' hFalse

theorem mono {P : α × Session → β × Session → Prop} (h : Mirrors Q x y)
    (hImp : ∀ r r', x = Option.some r → y = Option.some r' → Q r r' → P r r') : Mirrors P x y := by
  intro r hResult hOperands
  obtain ⟨r', hResult', hQ⟩ := h r hResult hOperands
  exact ⟨r', hResult', hImp r r' hResult hResult' hQ⟩

end Mirrors

/-- What comes next is related, and the nodes are the same tree. -/
structure Agree (R : Stream' Word → Stream' Word → Prop) (r r' : NodeId × Session) :
    Prop where
  course : R r.2.words r'.2.words
  tree : r.2.arena.SameTree r'.2.arena r.1 r'.1

/-- What comes next is related, and the nodes are the same trees. -/
structure AgreeAll (R : Stream' Word → Stream' Word → Prop) (r r' : List NodeId × Session) :
    Prop where
  course : R r.2.words r'.2.words
  trees : r.2.arena.SameTrees r'.2.arena r.1 r'.1

section

variable {R : Stream' Word → Stream' Word → Prop} {s s' : Session}

/-- New nodes that say the same of themselves and have the same children. -/
theorem Agree.alloc {kind kind' : NodeKind} {label : NodeLabel} {range range' : SourceRange}
    (h : R s.words s'.words) (hLabel : s.arena.label? kind = some label)
    (hLabel' : s'.arena.label? kind' = some label)
    (hChildren : s.arena.SameTrees s'.arena kind.children kind'.children) :
    Agree R (s.alloc kind range) (s'.alloc kind' range') :=
  ⟨h, .alloc hLabel hLabel' hChildren range range'⟩

theorem Agree.fault {id id' : NodeId} {symbols symbols' : SymbolTable} {f f' : SyntaxFault}
    {range range' : SourceRange} (h : Agree R (id, s) (id', s')) :
    Agree R (id, (s.fault symbols f range).2) (id', (s'.fault symbols' f' range').2) :=
  ⟨h.course, h.tree⟩

theorem Agree.attach {id id' : NodeId} {message message' : MessageId}
    (h : Agree R (id, s) (id', s')) {target target' : NodeId} :
    Agree R (id, s.attach target message) (id', s'.attach target' message') :=
  ⟨h.course, h.tree.mono (s.arena.extends_attach _ _) (s'.arena.extends_attach _ _)⟩

theorem Agree.setRange {id id' : NodeId} {range range' : SourceRange}
    (h : Agree R (id, s) (id', s')) {target target' : NodeId} :
    Agree R (id, s.setRange target range) (id', s'.setRange target' range') :=
  ⟨h.course, h.tree.mono (s.arena.extends_setRange _ _) (s'.arena.extends_setRange _ _)⟩

/-- Invalid nodes for tokens of one kind. -/
theorem Agree.invalidNode {token token' : Token} (h : R s.words s'.words)
    (hToken : token.word s.source = token'.word s'.source) :
    Agree R (s.invalidNode token) (s'.invalidNode token') := by
  have hSymbol : token.symbol = token'.symbol := congrArg Word.symbol hToken
  refine .alloc h rfl ?_ .nil
  rw [hSymbol]
  rfl

theorem Agree.rejectedNode {token token' : Token} {m m' : Message} (h : R s.words s'.words)
    (hToken : token.word s.source = token'.word s'.source) :
    Agree R (s.rejectedNode token m) (s'.rejectedNode token' m') := by
  have hNode : Agree R ((s.report m).2.invalidNode token) ((s'.report m').2.invalidNode token') :=
    .invalidNode h hToken
  exact hNode.attach

/-- Identifiers of one text. -/
theorem Agree.nameNode {token token' : Token} (h : R s.words s'.words)
    (hToken : token.word s.source = token'.word s'.source) :
    Agree R (s.nameNode token) (s'.nameNode token') := by
  have hText (a : Arena) (text : String) :
      (a.internName text).2.label? (.name (a.internName text).1) = some (.name text) := by
    simp [Arena.label?, Arena.internName, a.names.text?_intern]
  have hPayload : s.payload token = s'.payload token' := congrArg Word.text hToken
  let named : Session := { s with arena := (s.arena.internName (.ofList (s.payload token))).2 }
  let named' : Session := { s' with arena := (s'.arena.internName (.ofList (s'.payload token'))).2 }
  have hNamed : R named.words named'.words := h
  refine .alloc hNamed (hText _ _) ?_ .nil
  rw [hPayload]
  exact hText _ _

end

end Precedence
