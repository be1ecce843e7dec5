import Precedence.Proofs.Arena.Descent
import Precedence.Proofs.Diagnostic.Errors
import Precedence.Proofs.Grammar.Parselets
import Precedence.Proofs.Session.Sight

/-!
A parse as an assembly of pieces. Tokens are laid on a bench as they are consumed; a construct that
is complete takes the last pieces away and puts the node that it made in their place. So at every
moment the pieces stand for the tokens consumed so far, in order, and a new node is made of what is
next to each other. This says more of a parse than its steps do: which tokens and nodes each new
node replaces, and where a fault is reported.
-/
namespace Precedence

open Relation Session

/-- What has been read and is not yet part of a larger node: a token, or a node. -/
inductive Piece where
  | token (τ : Token)
  | node (id : NodeId)

namespace Piece

/-- The range of a piece. -/
def range (a : Arena) : Piece → SourceRange
  | token τ => τ.range
  | node id => a.range id

/-- The node that a piece is, if it is one. -/
def node? : Piece → Option NodeId
  | token _ => none
  | node id => some id

/-- The nodes among pieces, in order. -/
def nodes (pieces : List Piece) : List NodeId := pieces.filterMap node?

@[simp] theorem nodes_nil : nodes [] = [] := rfl

@[simp] theorem nodes_cons_token (τ : Token) (pieces : List Piece) :
    nodes (token τ :: pieces) = nodes pieces := rfl

@[simp] theorem nodes_cons_node (id : NodeId) (pieces : List Piece) :
    nodes (node id :: pieces) = id :: nodes pieces := rfl

@[simp] theorem nodes_append (pieces later : List Piece) :
    nodes (pieces ++ later) = nodes pieces ++ nodes later := List.filterMap_append

@[simp] theorem nodes_map_token (tokens : List Token) : nodes (tokens.map token) = [] := by
  induction tokens with
  | nil => rfl
  | cons τ tokens ih => exact ih

end Piece

theorem SourceRange.merge_self (r : SourceRange) : r.merge r = r := by
  simp [merge]

theorem Session.rangeFrom_previous (s : Session) :
    s.rangeFrom s.previous.range = s.previous.range :=
  s.previous.range.merge_self

/-! ### What a grammar makes of a symbol -/

/-- The symbols that the construct asks for after it has started. -/
def PrefixParselet.marks : PrefixParselet → List Symbol
  | .group closing separator _ => closing :: separator.toList
  | .block separator terminator _ => terminator :: separator.toList
  | _ => []

/-- The symbols that the construct asks for after it has started. -/
def InfixForm.marks : InfixForm → List Symbol
  | .ternary second => [second]
  | .call closing separator => [closing, separator]
  | _ => []

/-- The symbols that mean something behind an operand or inside of a construct. -/
def Grammar.marks (g : Grammar) : List Symbol :=
  g.prefixes.flatMap (·.2.marks) ++ g.infixes.flatMap fun entry => entry.1 :: entry.2.form.marks

/-- No piece is an invalid token, unless invalid tokens mean something to the grammar. -/
def Grammar.Means (g : Grammar) (pieces : List Piece) : Prop :=
  .invalid ∉ g.marks → ∀ τ, .token τ ∈ pieces → τ.symbol ≠ .invalid

/-- The kind that a node made of some nodes can have. They are its children, except that the names
in a tuple become the parameters of a function and leave the tuple behind. -/
inductive Arena.Gathers (a : Arena) : List NodeId → NodeKind → Prop
  | children (kind : NodeKind) : Gathers a kind.children kind
  | parameters {tuple body : NodeId} {items : List NodeId}
      (hTuple : a.kind? tuple = some (.tuple items)) (hNames : ∀ id ∈ items, a.isName id = true) :
      Gathers a [tuple, body] (.lambda items body)

/-- The tokens among pieces are of some kinds. -/
def Piece.AreOf (symbols : List Symbol) (pieces : List Piece) : Prop :=
  ∀ τ, .token τ ∈ pieces → τ.symbol ∈ symbols

namespace Piece

variable {symbols : List Symbol} {pieces later : List Piece}

theorem areOf_nil (symbols : List Symbol) : AreOf symbols [] := by
  intro τ hMem
  cases hMem

theorem AreOf.append (h : AreOf symbols pieces) (h' : AreOf symbols later) :
    AreOf symbols (pieces ++ later) :=
  fun τ hMem => (List.mem_append.mp hMem).elim (h τ) (h' τ)

theorem AreOf.node (h : AreOf symbols pieces) (id : NodeId) :
    AreOf symbols (.node id :: pieces) := by
  intro τ hMem
  rcases List.mem_cons.mp hMem with hNode | hLater
  · cases hNode
  · exact h τ hLater

theorem AreOf.token (h : AreOf symbols pieces) {τ : Token} (hToken : τ.symbol ∈ symbols) :
    AreOf symbols (.token τ :: pieces) := by
  intro υ hMem
  rcases List.mem_cons.mp hMem with hSame | hLater
  · cases hSame
    exact hToken
  · exact h υ hLater

theorem AreOf.mono {more : List Symbol} (h : AreOf symbols pieces) (hMore : symbols ⊆ more) :
    AreOf more pieces :=
  fun τ hMem => hMore (h τ hMem)

end Piece

namespace Grammar

variable {g : Grammar} {pieces : List Piece}

theorem means_of_areOf {symbols : List Symbol} (h : Piece.AreOf symbols pieces)
    (hMarks : .invalid ∉ g.marks → .invalid ∉ symbols) : g.Means pieces := by
  intro hUnmarked τ hMem hInvalid
  apply hMarks hUnmarked
  rw [← hInvalid]
  exact h τ hMem

theorem Means.node (h : g.Means pieces) (id : NodeId) : g.Means (.node id :: pieces) := by
  intro hUnmarked τ hMem
  rcases List.mem_cons.mp hMem with hNode | hLater
  · cases hNode
  · exact h hUnmarked τ hLater

theorem Means.token (h : g.Means pieces) {τ : Token}
    (hToken : .invalid ∉ g.marks → τ.symbol ≠ .invalid) : g.Means (.token τ :: pieces) := by
  intro hUnmarked υ hMem
  rcases List.mem_cons.mp hMem with hSame | hLater
  · cases hSame
    exact hToken hUnmarked
  · exact h hUnmarked υ hLater

theorem means_nil (g : Grammar) : g.Means [] :=
  means_of_areOf (Piece.areOf_nil []) fun _ => List.not_mem_nil

/-- What a prefix parselet asks for is among the marks of the grammar. -/
theorem marks_of_prefixFor? {symbol : Symbol} {parselet : PrefixParselet}
    (h : g.prefixFor? symbol = some parselet) : .invalid ∉ g.marks → .invalid ∉ parselet.marks := by
  intro hUnmarked hMem
  exact hUnmarked (List.mem_append_left _
    (List.mem_flatMap.mpr ⟨_, mem_of_prefixFor? h, hMem⟩))

/-- An infix operator and what it asks for are among the marks of the grammar. -/
theorem marks_of_infixFor? {symbol : Symbol} {parselet : InfixParselet}
    (h : g.infixFor? symbol = some parselet) :
    .invalid ∉ g.marks → .invalid ∉ symbol :: parselet.form.marks := by
  intro hUnmarked hMem
  exact hUnmarked (List.mem_append_right _
    (List.mem_flatMap.mpr ⟨_, mem_of_infixFor? h, hMem⟩))

end Grammar

theorem Arena.Extends.isName {a b : Arena} (h : a.Extends b) {id : NodeId}
    (hName : a.isName id = true) : b.isName id = true := by
  obtain ⟨kind, hKind, hIs⟩ := (Option.any_eq_true _ _).mp hName
  exact (Option.any_eq_true _ _).mpr ⟨kind, h.kind hKind, hIs⟩

/-- The parameters of a function are the node in front of it, or the names in that tuple. -/
theorem Arena.gathers_of_parameters? {a b : Arena} {left : NodeId} {params : List NodeId}
    (hExtends : a.Extends b) (h : a.parameters? left = some params) (body : NodeId) :
    b.Gathers [left, body] (.lambda params body) := by
  have hSelf : b.Gathers [left, body] (.lambda [left] body) := .children (.lambda [left] body)
  unfold parameters? at h
  split at h
  · cases h
    exact hSelf
  · split at h
    · cases h
      exact hSelf
    · cases h
  · next items hTuple =>
    split at h
    · next hNames =>
      cases h
      refine .parameters (hExtends.kind hTuple) fun id hMem => hExtends.isName ?_
      exact List.all_eq_true.mp hNames id hMem
    · cases h
  · cases h

/-! ### The bench -/

/-- A session with the pieces that have been read and not been put together, in order. -/
structure Bench where
  session : Session
  pieces : List Piece

namespace Grammar

/-- A range is that of a bad escape in the token consumed last, as the grammar reads that token. -/
def FindsEscape (g : Grammar) (s : Session) (range : SourceRange) : Prop :=
  ∃ escape, g.prefixFor? s.previous.symbol = some (.string (some escape)) ∧
    ∃ error ∈ (unescape escape (s.payload s.previous)).errors,
      range = Engine.escapeRange s.source s.previous (s.payload s.previous) error

/-- One thing that a construct of the library does at the bench. Tokens are only passed over where
more errors than `floor` have been reported, or the first of them has been reported by the lexer. -/
inductive Act (g : Grammar) (floor : Nat) : Bench → Bench → Prop
  | look (s : Session) (p : List Piece) : Act g floor ⟨s, p⟩ ⟨s.peeked, p⟩
  | consume (s : Session) (p : List Piece) :
      Act g floor ⟨s, p⟩ ⟨s.consume.2, p ++ [.token s.coming.head]⟩
  /-- A fault about the next token. About an invalid one there is none but that it is left over. -/
  | fault (s : Session) (p : List Piece) {f : SyntaxFault}
      (hNext : s.coming.head.symbol = .invalid → ∃ found, f = .trailing found) :
      Act g floor ⟨s, p⟩ ⟨(s.fault g.symbols f s.coming.head.range).2, p⟩
  /-- A bad escape in the text of the token consumed last, attached to the node that it made. -/
  | escape (s : Session) (p : List Piece) {id : NodeId} {sequence : List Char}
      {range : SourceRange} (hValid : s.previous.symbol ≠ .invalid)
      (hSome : range.span.start < range.span.stop)
      (hStart : s.previous.text.start ≤ range.span.start)
      (hStop : range.span.stop ≤ s.previous.text.stop) (hFound : g.FindsEscape s range) :
      Act g floor ⟨s, p ++ [.node id]⟩
        ⟨(s.fault g.symbols (.invalidEscape sequence) range).2.attach id
          (s.fault g.symbols (.invalidEscape sequence) range).1, p ++ [.node id]⟩
  /-- A child that is no parameter list, where one is wanted. -/
  | parameters (s : Session) (p : List Piece) {id left : NodeId} (hLists : s.arena.Lists id left) :
      Act g floor ⟨s, p ++ [.node id]⟩
        ⟨(s.fault g.symbols .invalidParameters (s.nodeRange left)).2.attach left
          (s.fault g.symbols .invalidParameters (s.nodeRange left)).1, p ++ [.node id]⟩
  | intern (s : Session) (p : List Piece) (text : String) :
      Act g floor ⟨s, p⟩ ⟨{ s with arena := (s.arena.internName text).2 }, p⟩
  /-- A node for the last pieces. Its range goes on to the token consumed last, which is the end of
  its only piece if it has but one. -/
  | make (s : Session) (p : List Piece) {first : Piece} {rest : List Piece} {kind : NodeKind}
      {range : SourceRange} (hGathers : s.arena.Gathers (Piece.nodes (first :: rest)) kind)
      (hValid : kind.isInvalid = false) (hMeans : g.Means (first :: rest))
      (hRange : range = s.rangeFrom (first.range s.arena) ∨
        rest = [] ∧ range = first.range s.arena) :
      Act g floor ⟨s, p ++ first :: rest⟩
        ⟨(s.alloc kind range).2, p ++ [.node (s.alloc kind range).1]⟩
  /-- A group that leaves no node of its own. -/
  | ungroup (s : Session) (p : List Piece) {opening : Token} {inner : NodeId}
      {closing : List Token}
      (hMeans : g.Means (.token opening :: .node inner :: closing.map .token)) :
      Act g floor ⟨s, p ++ .token opening :: .node inner :: closing.map .token⟩
        ⟨s.setRange inner (s.rangeFrom opening.range), p ++ [.node inner]⟩
  /-- An invalid node for the token consumed last, with a fault attached. -/
  | reject (s : Session) (p : List Piece) {f : SyntaxFault}
      (hValid : s.previous.symbol ≠ .invalid) :
      Act g floor ⟨s, p ++ [.token s.previous]⟩
        ⟨(s.rejectedNode s.previous (f.message g.symbols s.previous.range)).2, p ++
          [.node (s.rejectedNode s.previous (f.message g.symbols s.previous.range)).1]⟩
  /-- An invalid node for tokens that have been passed over. -/
  | pass (s : Session) (p : List Piece) {first : Token} {rest : List Token}
      (hReason : floor < s.errorCount ∨ g.IsSilent s.source first) :
      Act g floor ⟨s, p ++ (first :: rest).map .token⟩
        ⟨(s.alloc (.invalid first.symbol) (s.rangeFrom first.range)).2,
          p ++ [.node (s.alloc (.invalid first.symbol) (s.rangeFrom first.range)).1]⟩

/-- Any number of acts. -/
abbrev Builds (g : Grammar) (floor : Nat) : Bench → Bench → Prop := ReflTransGen (g.Act floor)

end Grammar

/-! ### Errors reported on the way -/

/-- The count of errors is the number of those among the messages. -/
theorem Diagnostics.errorCount_eq (d : Diagnostics) :
    d.errorCount = d.toList.countP (·.isError) := by
  have hFold (ms : List Message) (n : Nat) :
      ms.foldl (fun n m => if m.severity = .error then n + 1 else n) n =
        n + ms.countP (·.isError) := by
    induction ms generalizing n with
    | nil => rfl
    | cons m ms ih =>
        rw [List.foldl_cons, ih, List.countP_cons]
        simp only [Message.isError, beq_iff_eq]
        split <;> omega
  rw [errorCount, count, ← Array.foldl_toList, hFold, Nat.zero_add]
  rfl

namespace Session

theorem Continues.errorCount_le {s t : Session} (h : s.Continues t) :
    s.errorCount ≤ t.errorCount := by
  rw [errorCount, errorCount, Diagnostics.errorCount_eq, Diagnostics.errorCount_eq]
  exact h.reported.sublist.countP_le

theorem errorCount_fault (s : Session) (symbols : SymbolTable) (f : SyntaxFault)
    (range : SourceRange) : (s.fault symbols f range).2.errorCount = s.errorCount + 1 := by
  simp [errorCount, Diagnostics.errorCount_eq, Diagnostics.toList, fault, report,
    Diagnostics.push, SyntaxFault.message, Message.isError]

end Session

namespace Grammar

variable {g : Grammar} {floor : Nat} {b c : Bench}

/-- Whatever is done at the bench, the session goes on. -/
theorem Act.continues (h : g.Act floor b c) : b.session.Continues c.session := by
  cases h with
  | look s => exact s.continues_peeked
  | consume s => exact s.continues_consume
  | fault s => exact s.continues_report _
  | escape s => exact (s.continues_report _).trans (continues_attach _ _ _)
  | parameters s => exact (s.continues_report _).trans (continues_attach _ _ _)
  | intern s p text =>
      exact ⟨rfl, rfl, ⟨0, rfl⟩, List.prefix_rfl, s.arena.extends_internName text⟩
  | make s => exact s.continues_alloc _ _
  | ungroup s => exact s.continues_setRange _ _
  | reject s =>
      exact ((s.continues_report _).trans (continues_alloc _ _ _)).trans (continues_attach _ _ _)
  | pass s => exact s.continues_alloc _ _

theorem Builds.continues (h : g.Builds floor b c) : b.session.Continues c.session := by
  induction h with
  | refl => exact .refl _
  | tail _ hLast ih => exact ih.trans hLast.continues

theorem Act.unfolds (h : g.Act floor b c) : b.session.Unfolds c.session := by
  cases h with
  | look s => exact s.unfolds_peeked
  | consume s => exact s.unfolds_consume
  | _ => exact unfolds_of_eq rfl rfl

theorem Builds.unfolds (h : g.Builds floor b c) : b.session.Unfolds c.session := by
  induction h with
  | refl => exact .refl _
  | tail _ hLast ih => exact ih.trans hLast.unfolds

/-! ### Nodes on the bench -/

/-- A node that comes to lie on the bench is new. -/
theorem Act.mem_nodes (h : g.Act floor b c) {id : NodeId} (hMem : id ∈ Piece.nodes c.pieces) :
    id ∈ Piece.nodes b.pieces ∨ id.index = b.session.arena.size := by
  have hReplaced {p q : List Piece} {node : NodeId} (hNew : node.index = b.session.arena.size)
      (hNodes : id ∈ Piece.nodes (p ++ [.node node])) :
      id ∈ Piece.nodes (p ++ q) ∨ id.index = b.session.arena.size := by
    rw [Piece.nodes_append] at hNodes ⊢
    rcases List.mem_append.mp hNodes with hOld | hLast
    · exact .inl (List.mem_append_left _ hOld)
    · exact .inr ((List.mem_singleton.mp hLast) ▸ hNew)
  cases h with
  | look => exact .inl hMem
  | consume => exact .inl (by simpa using hMem)
  | fault => exact .inl hMem
  | escape => exact .inl hMem
  | parameters => exact .inl hMem
  | intern => exact .inl hMem
  | make s p => exact hReplaced rfl hMem
  | ungroup s p =>
      left
      simp only [Piece.nodes_append, Piece.nodes_cons_node, Piece.nodes_nil, Piece.nodes_cons_token,
        Piece.nodes_map_token] at hMem ⊢
      exact hMem
  | reject s p => exact hReplaced rfl hMem
  | pass s p => exact hReplaced rfl hMem

/-- What is on the bench has been made since it was empty. -/
theorem Builds.le_of_mem_nodes (h : g.Builds floor b c) {base : Nat}
    (hBase : base ≤ b.session.arena.size) (hNew : ∀ id ∈ Piece.nodes b.pieces, base ≤ id.index) :
    ∀ id ∈ Piece.nodes c.pieces, base ≤ id.index := by
  induction h with
  | refl => exact hNew
  | @tail c d hBefore hLast ih =>
      intro id hMem
      rcases hLast.mem_nodes hMem with hOld | hLatest
      · exact ih id hOld
      · rw [hLatest]
        exact Nat.le_trans hBase (Builds.continues hBefore).arena.size_le

end Grammar

end Precedence
