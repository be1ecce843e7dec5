import Precedence.Proofs.Assembly.Basic
import Precedence.Proofs.Lexer.Layout

/-!
The pieces on the bench tile the tokens consumed so far: each token belongs to exactly one of them,
and a node stands from the start of its first token to the end of its last. An invalid token that
has gone into a node can be found there again, in an invalid node below it that covers the token.
Both follow from what each act does to the last pieces.
-/
namespace Precedence

open Session

/-- Tokens stand for the text from the start of the first to the end of the last. -/
def Span.Spans (s : Span) (tokens : List Token) : Prop :=
  ∃ first last, tokens.head? = some first ∧ tokens.getLast? = some last ∧
    s = ⟨first.range.span.start, last.range.span.stop⟩

namespace Span

variable {s : Span} {tokens : List Token}

theorem Spans.ne_nil (h : s.Spans tokens) : tokens ≠ [] := by
  rintro rfl
  obtain ⟨first, -, hFirst, -⟩ := h
  cases hFirst

/-- What tokens in order stand for covers each of them. -/
theorem Spans.isWithin (h : s.Spans tokens) (hOrder : AreInOrder tokens) :
    ∀ τ ∈ tokens, τ.range.span.IsWithin s := by
  obtain ⟨first, last, hFirst, hLast, rfl⟩ := h
  exact fun τ hMem => ⟨hOrder.start_le hFirst τ hMem, hOrder.stop_le hLast τ hMem⟩

/-- What some of the tokens stand for lies within what all of them stand for. -/
theorem Spans.isWithin_of_subset {t : Span} {some : List Token} (h : s.Spans some)
    (h' : t.Spans tokens) (hOrder : AreInOrder tokens) (hSome : some ⊆ tokens) :
    s.IsWithin t := by
  obtain ⟨first, last, hFirst, hLast, rfl⟩ := h
  have hStart := h'.isWithin hOrder first (hSome (List.mem_of_head? hFirst))
  have hStop := h'.isWithin hOrder last (hSome (List.mem_of_getLast? hLast))
  exact ⟨hStart.1, hStop.2⟩

theorem spans_singleton (τ : Token) : τ.range.span.Spans [τ] := ⟨τ, τ, rfl, rfl, rfl⟩

/-- The range from what the first tokens stand for to the last token covers them all. -/
theorem Spans.merge {later : List Token} {last : Token} (h : s.Spans tokens)
    (hOrder : AreInOrder (tokens ++ later)) (hLast : (tokens ++ later).getLast? = some last) :
    (s.merge last.range.span).Spans (tokens ++ later) := by
  obtain ⟨first, middle, hFirst, hMiddle, rfl⟩ := h
  have hHead : (tokens ++ later).head? = some first := by
    rw [List.head?_append, hFirst, Option.some_or]
  have hFirstLast := hOrder.start_le hHead last (List.mem_of_getLast? hLast)
  have hMiddleLast := hOrder.stop_le hLast middle
    (List.mem_append_left _ (List.mem_of_getLast? hMiddle))
  refine ⟨first, last, hHead, hLast, ?_⟩
  rw [Span.merge, Nat.min_eq_left hFirstLast, Nat.max_eq_right hMiddleLast]

end Span

/-! ### Tiles -/

/-- Pieces tile tokens, where a relation says which tokens a node can stand for. -/
inductive Tiles (R : NodeId → List Token → Prop) : List Piece → List Token → Prop
  | nil : Tiles R [] []
  | token (τ : Token) {pieces : List Piece} {tokens : List Token} (h : Tiles R pieces tokens) :
      Tiles R (.token τ :: pieces) (τ :: tokens)
  | node {id : NodeId} {own : List Token} {pieces : List Piece} {tokens : List Token}
      (hNode : R id own) (h : Tiles R pieces tokens) :
      Tiles R (.node id :: pieces) (own ++ tokens)

namespace Tiles

variable {R R' : NodeId → List Token → Prop} {pieces later : List Piece}
  {tokens others : List Token}

theorem append (h : Tiles R pieces tokens) (h' : Tiles R later others) :
    Tiles R (pieces ++ later) (tokens ++ others) := by
  induction h with
  | nil => exact h'
  | token τ _ ih => exact .token τ ih
  | node hNode _ ih =>
      rw [List.append_assoc]
      exact .node hNode ih

theorem exists_of_append (h : Tiles R (pieces ++ later) tokens) :
    ∃ front back, tokens = front ++ back ∧ Tiles R pieces front ∧ Tiles R later back := by
  induction pieces generalizing tokens with
  | nil => exact ⟨[], tokens, rfl, .nil, h⟩
  | cons piece pieces ih =>
      cases h with
      | token τ h =>
          obtain ⟨front, back, rfl, hFront, hBack⟩ := ih h
          exact ⟨τ :: front, back, rfl, .token τ hFront, hBack⟩
      | @node id own _ _ hNode h =>
          obtain ⟨front, back, rfl, hFront, hBack⟩ := ih h
          exact ⟨own ++ front, back, (List.append_assoc ..).symm, .node hNode hFront, hBack⟩

theorem singleton_node {id : NodeId} (h : R id tokens) : Tiles R [.node id] tokens := by
  rw [← List.append_nil tokens]
  exact .node h .nil

theorem of_singleton_node {id : NodeId} (h : Tiles R [.node id] tokens) : R id tokens := by
  cases h with
  | node hNode h =>
      cases h
      rw [List.append_nil]
      exact hNode

theorem eq_of_map_token {front : List Token} (h : Tiles R (front.map .token) tokens) :
    tokens = front := by
  induction front generalizing tokens with
  | nil =>
      cases h
      rfl
  | cons τ front ih =>
      cases h with
      | token _ h => rw [ih h]

theorem mono (h : Tiles R pieces tokens)
    (hMono : ∀ id ∈ Piece.nodes pieces, ∀ own, R id own → R' id own) : Tiles R' pieces tokens := by
  induction h with
  | nil => exact .nil
  | token τ _ ih => exact .token τ (ih hMono)
  | node hNode _ ih =>
      exact .node (hMono _ List.mem_cons_self _ hNode)
        (ih fun id hMem => hMono id (List.mem_cons_of_mem _ hMem))

/-- Each token is a piece of its own or stands within a node. -/
theorem exists_of_mem (h : Tiles R pieces tokens) {τ : Token} (hMem : τ ∈ tokens) :
    .token τ ∈ pieces ∨ ∃ id ∈ Piece.nodes pieces, ∃ own, R id own ∧ τ ∈ own := by
  induction h with
  | nil => cases hMem
  | token υ _ ih =>
      rcases List.mem_cons.mp hMem with rfl | hLater
      · exact .inl List.mem_cons_self
      · rcases ih hLater with hToken | ⟨id, hId, own, hOwn, hIn⟩
        · exact .inl (List.mem_cons_of_mem _ hToken)
        · exact .inr ⟨id, hId, own, hOwn, hIn⟩
  | @node id own _ _ hNode _ ih =>
      rcases List.mem_append.mp hMem with hOwn | hLater
      · exact .inr ⟨id, List.mem_cons_self, own, hNode, hOwn⟩
      · rcases ih hLater with hToken | ⟨other, hOther, own, hOwn, hIn⟩
        · exact .inl (List.mem_cons_of_mem _ hToken)
        · exact .inr ⟨other, List.mem_cons_of_mem _ hOther, own, hOwn, hIn⟩

theorem mem_of_token (h : Tiles R pieces tokens) {τ : Token} (hMem : .token τ ∈ pieces) :
    τ ∈ tokens := by
  induction h with
  | nil => cases hMem
  | token υ _ ih =>
      rcases List.mem_cons.mp hMem with hSame | hLater
      · cases hSame
        exact List.mem_cons_self
      · exact List.mem_cons_of_mem _ (ih hLater)
  | node _ _ ih =>
      rcases List.mem_cons.mp hMem with hSame | hLater
      · cases hSame
      · exact List.mem_append_right _ (ih hLater)

theorem exists_of_mem_nodes (h : Tiles R pieces tokens) {id : NodeId}
    (hMem : id ∈ Piece.nodes pieces) : ∃ own, R id own ∧ own.Sublist tokens := by
  induction h with
  | nil => cases hMem
  | token τ _ ih =>
      obtain ⟨own, hOwn, hSub⟩ := ih hMem
      exact ⟨own, hOwn, hSub.cons τ⟩
  | @node other own _ _ hNode _ ih =>
      rcases List.mem_cons.mp hMem with rfl | hLater
      · exact ⟨own, hNode, List.sublist_append_left _ _⟩
      · obtain ⟨own', hOwn, hSub⟩ := ih hLater
        exact ⟨own', hOwn, hSub.trans (List.sublist_append_right _ _)⟩

end Tiles

/-! ### What a node stands for -/

/-- A node has been made of some tokens: it covers just the text from the first to the last, and
each invalid token among them shows in an invalid node below it, unless invalid tokens mean
something to the grammar. -/
structure Arena.Represents (a : Arena) (g : Grammar) (id : NodeId) (tokens : List Token) :
    Prop where
  exist : ∃ kind, a.kind? id = some kind
  spans : (a.range id).span.Spans tokens
  shown : .invalid ∉ g.marks → ∀ τ ∈ tokens, τ.symbol = .invalid → ∃ x symbol,
    a.Holds id x ∧ a.kind? x = some (.invalid symbol) ∧ τ.range.span.IsWithin (a.range x).span

namespace Arena

variable {a b : Arena} {g : Grammar} {id : NodeId} {tokens : List Token}

/-- One arena goes on from another, and no node covers less than before. -/
structure Widens (a b : Arena) : Prop where
  extends_ : a.Extends b
  ranges {id : NodeId} {kind : NodeKind} :
    a.kind? id = some kind → (a.range id).span.IsWithin (b.range id).span

theorem widens_alloc (a : Arena) (kind : NodeKind) (range : SourceRange) :
    a.Widens (a.alloc kind range).2 := by
  refine ⟨a.extends_alloc kind range, fun hKind => ?_⟩
  rw [a.range_alloc_of_lt kind range (index_lt_of_kind? hKind)]
  exact .refl _

theorem widens_attach (a : Arena) (id : NodeId) (message : MessageId) :
    a.Widens (a.attach id message) := by
  refine ⟨a.extends_attach id message, fun _ => ?_⟩
  rw [range_attach]
  exact .refl _

theorem widens_internName (a : Arena) (text : String) : a.Widens (a.internName text).2 :=
  ⟨a.extends_internName text, fun _ => .refl _⟩

theorem widens_setRange (a : Arena) {id : NodeId} {range : SourceRange}
    (h : (a.range id).span.IsWithin range.span) : a.Widens (a.setRange id range) := by
  refine ⟨a.extends_setRange id range, fun {other kind} hKind => ?_⟩
  by_cases hSame : other = id
  · subst hSame
    rw [range_setRange_self a range (index_lt_of_kind? hKind)]
    exact h
  · rw [range_setRange_of_ne a range hSame]
    exact .refl _

/-- A node still stands for its tokens when its range is kept. -/
theorem Represents.mono (h : a.Represents g id tokens) (hWidens : a.Widens b)
    (hRange : b.range id = a.range id) : b.Represents g id tokens := by
  obtain ⟨⟨kind, hKind⟩, hSpans, hShown⟩ := h
  refine ⟨⟨kind, hWidens.extends_.kind hKind⟩, hRange ▸ hSpans, fun hUnmarked τ hMem hInvalid => ?_⟩
  obtain ⟨x, symbol, hHolds, hX, hCovers⟩ := hShown hUnmarked τ hMem hInvalid
  exact ⟨x, symbol, hWidens.extends_.holds hHolds, hWidens.extends_.kind hX,
    hCovers.trans (hWidens.ranges hX)⟩

/-- A node with another range stands for all tokens from the first to the last, if those that it did
not stand for before are valid. -/
theorem Represents.widen (h : a.Represents g id tokens) (hWidens : a.Widens b)
    {more : List Token} (hSpans : (b.range id).span.Spans more)
    (hMeans : .invalid ∉ g.marks → ∀ τ ∈ more, τ.symbol = .invalid → τ ∈ tokens) :
    b.Represents g id more := by
  obtain ⟨⟨kind, hKind⟩, -, hShown⟩ := h
  refine ⟨⟨kind, hWidens.extends_.kind hKind⟩, hSpans, fun hUnmarked τ hMem hInvalid => ?_⟩
  obtain ⟨x, symbol, hHolds, hX, hCovers⟩ :=
    hShown hUnmarked τ (hMeans hUnmarked τ hMem hInvalid) hInvalid
  exact ⟨x, symbol, hWidens.extends_.holds hHolds, hWidens.extends_.kind hX,
    hCovers.trans (hWidens.ranges hX)⟩

/-- An invalid node shows all tokens that it stands for. -/
theorem represents_invalid {symbol : Symbol} (hKind : a.kind? id = some (.invalid symbol))
    (hSpans : (a.range id).span.Spans tokens) (hOrder : AreInOrder tokens) :
    a.Represents g id tokens :=
  ⟨⟨_, hKind⟩, hSpans, fun _ τ hMem _ =>
    ⟨id, symbol, .refl, hKind, hSpans.isWithin hOrder τ hMem⟩⟩

/-- What is below one of the nodes that a node was made of is below that node, unless it is the
tuple that a function leaves behind. -/
theorem Gathers.holds {ids : List NodeId} {kind : NodeKind} {x : NodeId} {symbol : Symbol}
    (h : a.Gathers ids kind) (hExtends : a.Extends b) (hNode : b.kind? id = some kind)
    {child : NodeId} (hMem : child ∈ ids) (hHolds : a.Holds child x)
    (hX : a.kind? x = some (.invalid symbol)) : b.Holds id x := by
  cases h with
  | children => exact .head ⟨kind, hNode, hMem⟩ (hExtends.holds hHolds)
  | @parameters tuple body items hTuple hNames =>
      rcases List.mem_cons.mp hMem with rfl | hBody
      · -- an invalid node is not the tuple, so it is below one of the items
        rcases Relation.ReflTransGen.cases_head hHolds with
          rfl | ⟨item, ⟨other, hOther, hItem⟩, hBelow⟩
        · rw [hTuple] at hX
          cases hX
        · rw [hTuple] at hOther
          cases hOther
          exact .head ⟨_, hNode, List.mem_append_left _ hItem⟩ (hExtends.holds hBelow)
      · exact .head ⟨_, hNode, List.mem_append_right _ hBody⟩ (hExtends.holds hHolds)

end Arena

/-! ### The bench -/

/-- The pieces on a bench tile the first `n` of the tokens that there were when it was empty. -/
structure Bench.IsTiled (b : Bench) (g : Grammar) (tokens : Stream' Token) (n : Nat) : Prop where
  coming : b.session.coming = tokens.drop n
  tiles : Tiles (b.session.arena.Represents g) b.pieces (tokens.take n)
  previous : ∀ τ, (tokens.take n).getLast? = some τ → b.session.previous = τ
  distinct : (Piece.nodes b.pieces).Nodup

namespace Bench.IsTiled

variable {g : Grammar} {tokens : Stream' Token} {n : Nat} {s t : Session} {p : List Piece}

theorem empty (g : Grammar) (s : Session) : IsTiled ⟨s, []⟩ g s.coming 0 :=
  ⟨rfl, .nil, fun _ hLast => (by cases hLast), List.nodup_nil⟩

/-- What only changes reports, messages and the names of identifiers changes no tile. -/
theorem of_same (h : IsTiled ⟨s, p⟩ g tokens n) (hComing : t.coming = s.coming)
    (hPrevious : t.previous = s.previous) (hWidens : s.arena.Widens t.arena)
    (hRange : ∀ id, t.arena.range id = s.arena.range id) : IsTiled ⟨t, p⟩ g tokens n :=
  ⟨hComing.trans h.coming, h.tiles.mono fun id _ _ hOwn => hOwn.mono hWidens (hRange id),
    fun τ hLast => hPrevious.trans (h.previous τ hLast), h.distinct⟩

theorem consume (h : IsTiled ⟨s, p⟩ g tokens n) :
    IsTiled ⟨s.consume.2, p ++ [.token s.coming.head]⟩ g tokens (n + 1) := by
  obtain ⟨hComing, hTiles, -, hDistinct⟩ := h
  have hHead : s.coming.head = tokens.get n := by
    rw [show s.coming = tokens.drop n from hComing, Stream'.head_drop]
  refine ⟨?_, ?_, ?_, ?_⟩
  · rw [coming_consume, show s.coming = tokens.drop n from hComing, Stream'.tail_drop']
  · rw [Stream'.take_succ', hHead]
    have hArena : s.consume.2.arena = s.arena := s.arena_consume
    dsimp only
    rw [hArena]
    exact hTiles.append (.token _ .nil)
  · intro τ hLast
    rw [Stream'.take_succ', List.getLast?_concat] at hLast
    rw [previous_consume, hHead]
    exact Option.some.inj hLast
  · simpa using hDistinct

/-- A node on the bench exists. -/
theorem exists_kind (h : IsTiled ⟨s, p⟩ g tokens n) {id : NodeId} (hMem : id ∈ Piece.nodes p) :
    ∃ kind, s.arena.kind? id = some kind := by
  obtain ⟨own, hOwn, -⟩ := h.tiles.exists_of_mem_nodes hMem
  exact hOwn.exist

/-- The last pieces can be replaced by a node that stands for their tokens. -/
theorem replace {q : List Piece} {id : NodeId} (h : IsTiled ⟨s, p ++ q⟩ g tokens n)
    (hOrder : ∀ m, AreInOrder (tokens.take m)) (hComing : t.coming = s.coming)
    (hPrevious : t.previous = s.previous) (hWidens : s.arena.Widens t.arena)
    (hRange : ∀ other ∈ Piece.nodes p, t.arena.range other = s.arena.range other)
    (hNew : id ∉ Piece.nodes p)
    (hNode : ∀ back, AreInOrder back → Tiles (s.arena.Represents g) q back →
      (∀ τ, back.getLast? = some τ → s.previous = τ) → t.arena.Represents g id back) :
    IsTiled ⟨t, p ++ [.node id]⟩ g tokens n := by
  obtain ⟨front, back, hTokens, hFront, hBack⟩ := h.tiles.exists_of_append
  have hInOrder : AreInOrder back :=
    (hOrder n).sublist (hTokens ▸ List.sublist_append_right front back)
  refine ⟨hComing.trans h.coming, ?_, fun τ hLast => hPrevious.trans (h.previous τ hLast), ?_⟩
  · rw [hTokens]
    refine (hFront.mono fun other hMem own hOwn => hOwn.mono hWidens (hRange other hMem)).append
      (.singleton_node (hNode back hInOrder hBack fun τ hLast => h.previous τ ?_))
    rw [hTokens, List.getLast?_append, hLast, Option.some_or]
  · have hDistinct := h.distinct
    simp only [Piece.nodes_append, Piece.nodes_cons_node, Piece.nodes_nil] at hDistinct ⊢
    refine List.nodup_append.mpr
      ⟨(List.nodup_append.mp hDistinct).1, List.pairwise_singleton _ _, ?_⟩
    rintro other hMem _ hSingle rfl
    exact hNew (List.mem_singleton.mp hSingle ▸ hMem)

/-- A new node can take the place of the last pieces. -/
theorem alloc {q : List Piece} {kind : NodeKind} {range : SourceRange}
    (h : IsTiled ⟨s, p ++ q⟩ g tokens n) (hOrder : ∀ m, AreInOrder (tokens.take m))
    (hNode : ∀ back, AreInOrder back → Tiles (s.arena.Represents g) q back →
      (∀ τ, back.getLast? = some τ → s.previous = τ) →
        (s.alloc kind range).2.arena.Represents g (s.alloc kind range).1 back) :
    IsTiled ⟨(s.alloc kind range).2, p ++ [.node (s.alloc kind range).1]⟩ g tokens n := by
  have hOld : ∀ other ∈ Piece.nodes p, other.index < s.arena.size := by
    intro other hMem
    have hThere : other ∈ Piece.nodes (p ++ q) := by
      rw [Piece.nodes_append]
      exact List.mem_append_left _ hMem
    obtain ⟨kind, hKind⟩ := h.exists_kind hThere
    exact Arena.index_lt_of_kind? hKind
  refine h.replace hOrder rfl rfl (s.arena.widens_alloc kind range) (fun other hMem => ?_)
    (fun hMem => ?_) hNode
  · exact s.arena.range_alloc_of_lt kind range (hOld other hMem)
  · exact absurd (hOld _ hMem) (Nat.lt_irrefl _)

end Bench.IsTiled

/-- The first piece stands for the first tokens. -/
theorem Tiles.spans_first {a : Arena} {g : Grammar} {first : Piece} {rest : List Piece}
    {tokens : List Token} (h : Tiles (a.Represents g) (first :: rest) tokens) :
    ∃ own later, tokens = own ++ later ∧ (first.range a).span.Spans own ∧
      Tiles (a.Represents g) rest later := by
  cases h with
  | token τ h => exact ⟨[τ], _, rfl, Span.spans_singleton τ, h⟩
  | node hNode h => exact ⟨_, _, rfl, hNode.spans, h⟩

/-- The range from the first piece to the token consumed last covers all of them. -/
theorem Tiles.spans_rangeFrom {s : Session} {g : Grammar} {first : Piece} {rest : List Piece}
    {tokens : List Token} (h : Tiles (s.arena.Represents g) (first :: rest) tokens)
    (hOrder : AreInOrder tokens) (hPrevious : ∀ τ, tokens.getLast? = some τ → s.previous = τ) :
    (s.rangeFrom (first.range s.arena)).span.Spans tokens := by
  obtain ⟨own, later, rfl, hOwn, -⟩ := h.spans_first
  have hSome : own ++ later ≠ [] := fun hNil => hOwn.ne_nil (List.append_eq_nil_iff.mp hNil).1
  have hLast := List.getLast?_eq_some_getLast hSome
  rw [rangeFrom, SourceRange.merge_span, hPrevious _ hLast]
  exact hOwn.merge hOrder hLast

/-! ### Acts -/

namespace Grammar

variable {g : Grammar} {floor : Nat} {b c : Bench} {tokens : Stream' Token} {n : Nat}

/-- A node that was made of pieces stands for their tokens. -/
theorem represents_make {s : Session} {first : Piece} {rest : List Piece} {kind : NodeKind}
    {range : SourceRange} {back : List Token}
    (hGathers : s.arena.Gathers (Piece.nodes (first :: rest)) kind)
    (hMeans : g.Means (first :: rest))
    (hRange : range = s.rangeFrom (first.range s.arena) ∨
      rest = [] ∧ range = first.range s.arena)
    (hOrder : AreInOrder back) (hTiles : Tiles (s.arena.Represents g) (first :: rest) back)
    (hPrevious : ∀ τ, back.getLast? = some τ → s.previous = τ) :
    (s.alloc kind range).2.arena.Represents g (s.alloc kind range).1 back := by
  have hKind := s.arena.kind?_alloc_self kind range
  have hWidens := s.arena.widens_alloc kind range
  refine ⟨⟨kind, hKind⟩, ?_, fun hUnmarked τ hMem hInvalid => ?_⟩
  · have hSelf : (s.alloc kind range).2.arena.range (s.alloc kind range).1 = range :=
      s.arena.range_alloc_self kind range
    rw [hSelf]
    rcases hRange with rfl | ⟨rfl, rfl⟩
    · exact hTiles.spans_rangeFrom hOrder hPrevious
    · obtain ⟨own, later, rfl, hOwn, hRest⟩ := hTiles.spans_first
      cases hRest
      rw [List.append_nil]
      exact hOwn
  · rcases hTiles.exists_of_mem hMem with hToken | ⟨child, hChild, own, hOwn, hIn⟩
    · exact absurd hInvalid (hMeans hUnmarked τ hToken)
    · obtain ⟨x, symbol, hHolds, hX, hCovers⟩ := hOwn.shown hUnmarked τ hIn hInvalid
      exact ⟨x, symbol, hGathers.holds hWidens.extends_ hKind hChild hHolds hX,
        hWidens.extends_.kind hX, hCovers.trans (hWidens.ranges hX)⟩

/-- An invalid node stands for the tokens that were passed over. -/
theorem represents_pass {s : Session} {first : Token} {rest : List Token} {symbol : Symbol}
    {back : List Token} (hOrder : AreInOrder back)
    (hTiles : Tiles (s.arena.Represents g) ((first :: rest).map .token) back)
    (hPrevious : ∀ τ, back.getLast? = some τ → s.previous = τ) :
    (s.alloc (.invalid symbol) (s.rangeFrom first.range)).2.arena.Represents g
      (s.alloc (.invalid symbol) (s.rangeFrom first.range)).1 back := by
  refine Arena.represents_invalid (s.arena.kind?_alloc_self _ _) ?_ hOrder
  have hSelf : (s.alloc (.invalid symbol) (s.rangeFrom first.range)).2.arena.range
      (s.alloc (.invalid symbol) (s.rangeFrom first.range)).1 = s.rangeFrom first.range :=
    s.arena.range_alloc_self _ _
  rw [hSelf]
  exact hTiles.spans_rangeFrom hOrder hPrevious

/-- An invalid node with the range of one token stands for that token. -/
theorem represents_reject {s : Session} {τ : Token} (symbol : Symbol) {back : List Token}
    (hOrder : AreInOrder back) (hTiles : Tiles (s.arena.Represents g) [.token τ] back) :
    (s.alloc (.invalid symbol) τ.range).2.arena.Represents g
      (s.alloc (.invalid symbol) τ.range).1 back := by
  have hTokens : Tiles (s.arena.Represents g) ([τ].map .token) back := hTiles
  obtain rfl := hTokens.eq_of_map_token
  refine Arena.represents_invalid (s.arena.kind?_alloc_self _ _) ?_ hOrder
  have hSelf : (s.alloc (.invalid symbol) τ.range).2.arena.range
      (s.alloc (.invalid symbol) τ.range).1 = τ.range := s.arena.range_alloc_self _ _
  rw [hSelf]
  exact Span.spans_singleton τ

/-- The expression in a group stands for the delimiters as well once it has their range. -/
theorem represents_ungroup {s : Session} {opening : Token} {inner : NodeId} {closing : List Token}
    {back : List Token} (hMeans : g.Means (.token opening :: .node inner :: closing.map .token))
    (hOrder : AreInOrder back)
    (hTiles : Tiles (s.arena.Represents g)
      (.token opening :: .node inner :: closing.map .token) back)
    (hPrevious : ∀ τ, back.getLast? = some τ → s.previous = τ) :
    s.arena.Widens (s.setRange inner (s.rangeFrom opening.range)).arena ∧
      (s.setRange inner (s.rangeFrom opening.range)).arena.Represents g inner back := by
  have hSpans := hTiles.spans_rangeFrom hOrder hPrevious
  cases hTiles with
  | @token _ _ tokens hTiles =>
  cases hTiles with
  | @node _ own _ behind hNode hTiles =>
  obtain rfl := hTiles.eq_of_map_token
  have hWidens : s.arena.Widens (s.setRange inner (s.rangeFrom opening.range)).arena := by
    apply s.arena.widens_setRange
    refine hNode.spans.isWithin_of_subset hSpans hOrder ?_
    exact List.subset_cons_of_subset _ (List.subset_append_left _ _)
  refine ⟨hWidens, hNode.widen hWidens ?_ fun hUnmarked τ hMem hInvalid => ?_⟩
  · obtain ⟨kind, hKind⟩ := hNode.exist
    have hSelf := s.arena.range_setRange_self (s.rangeFrom opening.range)
      (Arena.index_lt_of_kind? hKind)
    rw [setRange, hSelf]
    exact hSpans
  · rcases List.mem_cons.mp hMem with rfl | hMem
    · exact absurd hInvalid (hMeans hUnmarked _ List.mem_cons_self)
    · refine (List.mem_append.mp hMem).resolve_right fun hBehind => ?_
      refine hMeans hUnmarked τ ?_ hInvalid
      exact List.mem_cons_of_mem _ (List.mem_cons_of_mem _ (List.mem_map_of_mem hBehind))

/-- What is done at the bench keeps its pieces in line with the tokens. -/
theorem Act.exists_isTiled (h : g.Act floor b c) (hOrder : ∀ m, AreInOrder (tokens.take m))
    (hTiled : b.IsTiled g tokens n) : ∃ m, n ≤ m ∧ c.IsTiled g tokens m := by
  cases h with
  | look s p =>
      refine ⟨n, Nat.le_refl n, hTiled.of_same s.coming_peeked s.previous_peeked ?_ fun id => ?_⟩
      · rw [arena_peeked]
        exact ⟨.refl _, fun _ => .refl _⟩
      · rw [arena_peeked]
  | consume s p => exact ⟨n + 1, Nat.le_succ n, hTiled.consume⟩
  | fault s p hNext =>
      exact ⟨n, Nat.le_refl n, hTiled.of_same rfl rfl ⟨.refl _, fun _ => .refl _⟩ fun _ => rfl⟩
  | escape s p hValid hSome hStart hStop =>
      exact ⟨n, Nat.le_refl n, hTiled.of_same rfl rfl (Arena.widens_attach _ _ _) fun _ =>
        Arena.range_attach _ _ _ _⟩
  | parameters s p hLists =>
      exact ⟨n, Nat.le_refl n, hTiled.of_same rfl rfl (Arena.widens_attach _ _ _) fun _ =>
        Arena.range_attach _ _ _ _⟩
  | intern s p text =>
      exact ⟨n, Nat.le_refl n, hTiled.of_same rfl rfl (Arena.widens_internName _ _) fun _ => rfl⟩
  | make s p hGathers hValid hMeans hRange =>
      exact ⟨n, Nat.le_refl n, hTiled.alloc hOrder fun back hInOrder hTiles hPrevious =>
        represents_make hGathers hMeans hRange hInOrder hTiles hPrevious⟩
  | @ungroup s p opening inner closing hMeans =>
      obtain ⟨front, back, hTokens, -, hBack⟩ := hTiled.tiles.exists_of_append
      have hWidens := (represents_ungroup hMeans
        ((hOrder n).sublist (hTokens ▸ List.sublist_append_right front back)) hBack
          fun τ hLast => hTiled.previous τ (by
            rw [hTokens, List.getLast?_append, hLast, Option.some_or])).1
      have hOther : inner ∉ Piece.nodes p := by
        have hDistinct := hTiled.distinct
        rw [Piece.nodes_append] at hDistinct
        exact fun hMem => (List.nodup_append.mp hDistinct).2.2 inner hMem inner
          (by simp) rfl
      refine ⟨n, Nat.le_refl n, hTiled.replace hOrder rfl rfl hWidens (fun other hMem => ?_) hOther
        fun back hInOrder hTiles hPrevious =>
          (represents_ungroup hMeans hInOrder hTiles hPrevious).2⟩
      exact s.arena.range_setRange_of_ne _ fun hSame => hOther (hSame ▸ hMem)
  | @reject s p f hValid =>
      have hReported : Bench.IsTiled ⟨(s.report (f.message g.symbols s.previous.range)).2,
          p ++ [.token s.previous]⟩ g tokens n :=
        hTiled.of_same rfl rfl ⟨.refl _, fun _ => .refl _⟩ fun _ => rfl
      have hNode := hReported.alloc hOrder fun back hInOrder hTiles _ =>
        represents_reject s.previous.symbol hInOrder hTiles
      exact ⟨n, Nat.le_refl n, hNode.of_same rfl rfl (Arena.widens_attach _ _ _) fun _ =>
        Arena.range_attach _ _ _ _⟩
  | @pass s p first rest hReason =>
      exact ⟨n, Nat.le_refl n, hTiled.alloc hOrder fun back hInOrder hTiles hPrevious =>
        represents_pass hInOrder hTiles hPrevious⟩

theorem Builds.exists_isTiled (h : g.Builds floor b c) (hOrder : ∀ m, AreInOrder (tokens.take m))
    (hTiled : b.IsTiled g tokens n) : ∃ m, n ≤ m ∧ c.IsTiled g tokens m := by
  induction h with
  | refl => exact ⟨n, Nat.le_refl n, hTiled⟩
  | tail _ hLast ih =>
      obtain ⟨m, hLe, hBefore⟩ := ih
      obtain ⟨k, hLater, hAfter⟩ := hLast.exists_isTiled hOrder hBefore
      exact ⟨k, Nat.le_trans hLe hLater, hAfter⟩

end Grammar

end Precedence
