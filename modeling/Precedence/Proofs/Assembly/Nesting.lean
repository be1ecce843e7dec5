import Precedence.Proofs.Assembly.Tree
import Precedence.Proofs.Grammar.CleanParse

/-!
The ranges of a tree. A node covers its children, and these lie one behind the other, because a new
node stands for the text of the pieces that it is made of. A node that is on the bench may still be
given a wider range, but then no other node lists it yet.
-/
namespace Precedence

open Session

namespace Span.Spans

variable {s : Span} {tokens : List Token}

/-- What tokens in order stand for does not run backwards. -/
theorem start_le_stop (h : s.Spans tokens) (hOrder : AreInOrder tokens) : s.start ≤ s.stop := by
  obtain ⟨first, last, hFirst, hLast, rfl⟩ := h
  have hMem := List.mem_of_getLast? hLast
  exact Nat.le_trans (hOrder.start_le hFirst last hMem) (hOrder.forward last hMem)

theorem stop_le (h : s.Spans tokens) {limit : Nat}
    (hLimit : ∀ τ ∈ tokens, τ.range.span.stop ≤ limit) : s.stop ≤ limit := by
  obtain ⟨first, last, -, hLast, rfl⟩ := h
  exact hLimit last (List.mem_of_getLast? hLast)

/-- Tokens stand before those that follow them. -/
theorem stop_le_start {t : Span} {later : List Token} (h : s.Spans tokens) (h' : t.Spans later)
    (hOrder : ∀ τ ∈ tokens, ∀ υ ∈ later, τ.Precedes υ) : s.stop ≤ t.start := by
  obtain ⟨-, last, -, hLast, rfl⟩ := h
  obtain ⟨first, -, hFirst, -, rfl⟩ := h'
  exact hOrder last (List.mem_of_getLast? hLast) first (List.mem_of_head? hFirst)

end Span.Spans

namespace Arena

variable {a b : Arena} {limit : Nat} {id : NodeId}

/-- Nodes lie within a span, one behind the other. -/
structure Lays (a : Arena) (s : Span) (ids : List NodeId) : Prop where
  within : ∀ id ∈ ids, (a.range id).span.IsWithin s
  ordered : ids.Pairwise fun x y => (a.range x).span.stop ≤ (a.range y).span.start

theorem Lays.of_same {s : Span} {ids : List NodeId} (h : a.Lays s ids)
    (hRange : ∀ id ∈ ids, b.range id = a.range id) : b.Lays s ids := by
  refine ⟨fun id hMem => hRange id hMem ▸ h.within id hMem, ?_⟩
  refine h.ordered.imp_of_mem fun hX hY hBefore => ?_
  rw [hRange _ hX, hRange _ hY]
  exact hBefore

theorem Lays.widen {s t : Span} {ids : List NodeId} (h : a.Lays s ids) (hWider : s.IsWithin t) :
    a.Lays t ids :=
  ⟨fun id hMem => (h.within id hMem).trans hWider, h.ordered⟩

/-- Every node has a range up to some limit that covers its children, one behind the other. -/
structure IsNested (a : Arena) (limit : Nat) : Prop where
  forward {id : NodeId} {kind : NodeKind} : a.kind? id = some kind →
    (a.range id).span.start ≤ (a.range id).span.stop ∧ (a.range id).span.stop ≤ limit
  lays {id : NodeId} {kind : NodeKind} : a.kind? id = some kind →
    a.Lays (a.range id).span kind.children

namespace IsNested

theorem empty (limit : Nat) : Arena.empty.IsNested limit :=
  ⟨fun hKind => (by cases hKind), fun hKind => (by cases hKind)⟩

theorem of_same (h : a.IsNested limit) (hKind : ∀ id, b.kind? id = a.kind? id)
    (hRange : ∀ id, b.range id = a.range id) : b.IsNested limit := by
  refine ⟨fun hNode => ?_, fun hNode => ?_⟩
  all_goals rw [hKind] at hNode
  all_goals rw [hRange]
  · exact h.forward hNode
  · exact (h.lays hNode).of_same fun id _ => hRange id

/-- A new node has to cover its children. -/
theorem alloc (h : a.IsNested limit) (hDescending : a.IsDescending) {kind : NodeKind}
    {range : SourceRange} (hForward : range.span.start ≤ range.span.stop)
    (hLimit : range.span.stop ≤ limit) (hThere : ∀ child ∈ kind.children, a.contains child = true)
    (hLays : a.Lays range.span kind.children) : (a.alloc kind range).2.IsNested limit := by
  have hOld {id : NodeId} (hContains : a.contains id = true) :
      (a.alloc kind range).2.range id = a.range id :=
    a.range_alloc_of_lt kind range (of_decide_eq_true hContains)
  have hSelf : (a.alloc kind range).2.range ⟨a.size⟩ = range := a.range_alloc_self kind range
  refine ⟨fun {id k} hKind => ?_, fun {id k} hKind => ?_⟩
  all_goals rcases kind?_alloc_cases hKind with ⟨rfl, rfl⟩ | hBefore
  · rw [hSelf]
    exact ⟨hForward, hLimit⟩
  · rw [hOld (contains_of_kind? hBefore)]
    exact h.forward hBefore
  · rw [hSelf]
    exact hLays.of_same fun child hMem => hOld (hThere child hMem)
  · rw [hOld (contains_of_kind? hBefore)]
    refine (h.lays hBefore).of_same fun child hMem => hOld (decide_eq_true ?_)
    exact Nat.lt_trans (hDescending id child ⟨k, hBefore, hMem⟩) (index_lt_of_kind? hBefore)

/-- A node that no other node lists may have a wider range. -/
theorem setRange (h : a.IsNested limit) {range : SourceRange}
    (hForward : range.span.start ≤ range.span.stop) (hLimit : range.span.stop ≤ limit)
    (hWider : (a.range id).span.IsWithin range.span) (hUnlisted : ∀ parent, ¬ a.Lists parent id) :
    (a.setRange id range).IsNested limit := by
  have hOther {x : NodeId} (hNe : x ≠ id) : (a.setRange id range).range x = a.range x :=
    a.range_setRange_of_ne range hNe
  have hLays {x : NodeId} {kind : NodeKind} (hKind : a.kind? x = some kind) :
      (a.setRange id range).Lays (a.range x).span kind.children := by
    refine (h.lays hKind).of_same fun child hMem => hOther ?_
    rintro rfl
    exact hUnlisted x ⟨kind, hKind, hMem⟩
  refine ⟨fun {x kind} hKind => ?_, fun {x kind} hKind => ?_⟩
  all_goals rw [kind?_setRange] at hKind
  all_goals by_cases hSame : x = id
  · rw [hSame, a.range_setRange_self range (hSame ▸ index_lt_of_kind? hKind)]
    exact ⟨hForward, hLimit⟩
  · rw [hOther hSame]
    exact h.forward hKind
  · subst hSame
    rw [a.range_setRange_self range (index_lt_of_kind? hKind)]
    exact (hLays hKind).widen hWider
  · rw [hOther hSame]
    exact hLays hKind

/-- No range runs backwards, also where there is no node. -/
theorem start_le_stop (h : a.IsNested limit) (id : NodeId) :
    (a.range id).span.start ≤ (a.range id).span.stop := by
  cases hKind : a.kind? id with
  | some kind => exact (h.forward hKind).1
  | none =>
      rw [range_of_kind?_eq_none hKind]
      exact Nat.le_refl 0

/-- A node covers everything below it. -/
theorem isWithin_of_holds (h : a.IsNested limit) {x : NodeId} (hHolds : a.Holds id x) :
    (a.range x).span.IsWithin (a.range id).span := by
  induction hHolds with
  | refl => exact .refl _
  | tail _ hLists ih =>
      obtain ⟨kind, hKind, hMem⟩ := hLists
      exact ((h.lays hKind).within _ hMem).trans ih

/-- A walk meets the nodes in the order in which they start. -/
theorem pairwise_walkWithin (h : a.IsNested limit) {depth : Nat} {order : List NodeId}
    (hWalk : a.walkWithin depth id = some order) :
    order.Pairwise fun x y => (a.range x).span.start ≤ (a.range y).span.start := by
  induction depth generalizing id order with
  | zero => cases hWalk
  | succ depth ih =>
      obtain ⟨kind, below, hKind, hBelow, rfl⟩ := walkWithin_succ.mp hWalk
      have hMem := hBelow.imp fun _ _ hChild => mem_walkWithin hChild
      refine List.pairwise_cons.mpr ⟨fun x hX => ?_, pairwise_flatten hMem
        (hBelow.imp fun _ _ hChild => ih hChild) ?_⟩
      · obtain ⟨child, hChild, hHolds⟩ := (mem_flatten_iff hMem x).mp hX
        exact (h.isWithin_of_holds (.head ⟨kind, hKind, hChild⟩ hHolds)).1
      · refine (h.lays hKind).ordered.imp fun {x y} hBefore z z' hZ hZ' => ?_
        -- what is below the first child starts before its end, and that is where it stops
        calc (a.range z).span.start ≤ (a.range z).span.stop := h.start_le_stop z
          _ ≤ (a.range x).span.stop := (h.isWithin_of_holds hZ).2
          _ ≤ (a.range y).span.start := hBefore
          _ ≤ (a.range z').span.start := (h.isWithin_of_holds hZ').1

end IsNested

end Arena

/-! ### Acts -/

/-- The nodes among pieces lie one behind the other within the text that the pieces stand for. -/
theorem Tiles.lays {a : Arena} {g : Grammar} {s : Span} {pieces : List Piece}
    {tokens : List Token} (h : Tiles (a.Represents g) pieces tokens) (hOrder : AreInOrder tokens)
    (hSpans : s.Spans tokens) : a.Lays s (Piece.nodes pieces) := by
  constructor
  · intro id hMem
    obtain ⟨own, hOwn, hSome⟩ := h.exists_of_mem_nodes hMem
    exact hOwn.spans.isWithin_of_subset hSpans hOrder hSome.subset
  · clear hSpans
    induction h with
    | nil => exact List.Pairwise.nil
    | token τ _ ih => exact ih (hOrder.sublist (List.sublist_cons_self _ _))
    | @node id own pieces tokens hNode hRest ih =>
        obtain ⟨-, -, hApart⟩ := List.pairwise_append.mp hOrder.pairwise
        refine List.pairwise_cons.mpr ⟨fun other hMem => ?_,
          ih (hOrder.sublist (List.sublist_append_right _ _))⟩
        obtain ⟨later, hLater, hSome⟩ := hRest.exists_of_mem_nodes hMem
        exact hNode.spans.stop_le_start hLater.spans fun τ hTau υ hUpsilon =>
          hApart τ hTau υ (hSome.subset hUpsilon)

/-- So do the children of a node that is made of the pieces. -/
theorem Arena.Gathers.lays {a : Arena} {limit : Nat} {s : Span} {ids : List NodeId}
    {kind : NodeKind} (h : a.Gathers ids kind) (hNested : a.IsNested limit) (hLays : a.Lays s ids) :
    a.Lays s kind.children := by
  cases h with
  | children => exact hLays
  | @parameters tuple body items hTuple hNames =>
      have hItems := hNested.lays hTuple
      obtain ⟨hWithin, hOrdered⟩ := hLays
      have hBefore := (List.pairwise_cons.mp hOrdered).1 body (List.mem_singleton_self body)
      have hTupleWithin := hWithin tuple List.mem_cons_self
      refine ⟨List.forall_mem_append.mpr ⟨fun item hMem => ?_, fun id hMem => ?_⟩,
        List.pairwise_append.mpr ⟨hItems.ordered, List.pairwise_singleton _ _, ?_⟩⟩
      · exact (hItems.within item hMem).trans hTupleWithin
      · exact hWithin id (List.mem_cons_of_mem _ hMem)
      · intro item hMem id hBody
        rw [List.mem_singleton.mp hBody]
        exact Nat.le_trans (hItems.within item hMem).2 hBefore

namespace Grammar

variable {g : Grammar} {floor n limit : Nat} {b c : Bench} {tokens : Stream' Token}
  {left : List (NodeId × NodeId)}

/-- The last pieces tile some of the tokens consumed so far, up to the one consumed last. -/
theorem exists_tiles_back {s : Session} {p q : List Piece}
    (hOrder : ∀ m, AreInOrder (tokens.take m)) (hTiled : Bench.IsTiled ⟨s, p ++ q⟩ g tokens n) :
    ∃ back, back ⊆ tokens.take n ∧ AreInOrder back ∧ Tiles (s.arena.Represents g) q back ∧
      ∀ τ, back.getLast? = some τ → s.previous = τ := by
  obtain ⟨front, back, hTokens, -, hBack⟩ := hTiled.tiles.exists_of_append
  have hSome : back.Sublist (tokens.take n) := hTokens ▸ List.sublist_append_right front back
  refine ⟨back, hSome.subset, (hOrder n).sublist hSome, hBack, fun τ hLast => ?_⟩
  apply hTiled.previous τ
  rw [hTokens, List.getLast?_append, hLast, Option.some_or]

/-- A node that stands for the tokens of the pieces that it is made of covers its children. -/
theorem isNested_alloc {s : Session} {p q : List Piece} {kind : NodeKind} (range : SourceRange)
    (hOrder : ∀ m, AreInOrder (tokens.take m))
    (hLimit : ∀ m, ∀ τ ∈ tokens.take m, τ.range.span.stop ≤ limit)
    (hTiled : Bench.IsTiled ⟨s, p ++ q⟩ g tokens n) (hForest : Bench.IsForest ⟨s, p ++ q⟩ left)
    (hNested : s.arena.IsNested limit) (hGathers : s.arena.Gathers (Piece.nodes q) kind)
    (hNode : ∀ back, AreInOrder back → Tiles (s.arena.Represents g) q back →
      (∀ τ, back.getLast? = some τ → s.previous = τ) →
        (s.alloc kind range).2.arena.Represents g (s.alloc kind range).1 back) :
    (s.alloc kind range).2.arena.IsNested limit := by
  obtain ⟨back, hSome, hInOrder, hBack, hPrevious⟩ := exists_tiles_back hOrder hTiled
  have hSpans := (hNode back hInOrder hBack hPrevious).spans
  have hSelf : (s.alloc kind range).2.arena.range (s.alloc kind range).1 = range :=
    s.arena.range_alloc_self kind range
  rw [hSelf] at hSpans
  obtain ⟨left', hTaken, -⟩ := hForest.exists_release hGathers range
  exact hNested.alloc hForest.forest.descending (hSpans.start_le_stop hInOrder)
    (hSpans.stop_le fun τ hMem => hLimit n τ (hSome hMem))
    (fun child hMem => (hTaken.root child (List.mem_append_right _ hMem)).1)
    (hGathers.lays hNested (hBack.lays hInOrder hSpans))

/-- A group that leaves no node gives its range to the expression in it, which nothing lists. -/
theorem isNested_ungroup {s : Session} {p : List Piece} {opening : Token} {inner : NodeId}
    {closing : List Token} (hMeans : g.Means (.token opening :: .node inner :: closing.map .token))
    (hOrder : ∀ m, AreInOrder (tokens.take m))
    (hLimit : ∀ m, ∀ τ ∈ tokens.take m, τ.range.span.stop ≤ limit)
    (hTiled : Bench.IsTiled ⟨s, p ++ .token opening :: .node inner :: closing.map .token⟩ g
      tokens n)
    (hForest : Bench.IsForest ⟨s, p ++ .token opening :: .node inner :: closing.map .token⟩ left)
    (hNested : s.arena.IsNested limit) :
    (s.setRange inner (s.rangeFrom opening.range)).arena.IsNested limit := by
  obtain ⟨back, hSome, hInOrder, hBack, hPrevious⟩ := exists_tiles_back hOrder hTiled
  obtain ⟨hWidens, hNode⟩ := represents_ungroup hMeans hInOrder hBack hPrevious
  have hMem : inner ∈ Piece.nodes (p ++ .token opening :: .node inner :: closing.map .token) := by
    simp
  obtain ⟨kind, hKind⟩ := hTiled.exists_kind hMem
  have hSelf : (s.setRange inner (s.rangeFrom opening.range)).arena.range inner =
      s.rangeFrom opening.range :=
    s.arena.range_setRange_self _ (Arena.index_lt_of_kind? hKind)
  have hSpans := hNode.spans
  have hWider := hWidens.ranges hKind
  rw [hSelf] at hSpans hWider
  exact hNested.setRange (hSpans.start_le_stop hInOrder)
    (hSpans.stop_le fun τ hMem => hLimit n τ (hSome hMem)) hWider (hForest.free inner hMem).2

/-- Whatever is done at the bench, every node covers its children. -/
theorem Act.isNested (h : g.Act floor b c) (hOrder : ∀ m, AreInOrder (tokens.take m))
    (hLimit : ∀ m, ∀ τ ∈ tokens.take m, τ.range.span.stop ≤ limit)
    (hTiled : b.IsTiled g tokens n) (hForest : b.IsForest left)
    (hNested : b.session.arena.IsNested limit) : c.session.arena.IsNested limit := by
  cases h with
  | look s p =>
      rw [s.arena_peeked]
      exact hNested
  | consume s p =>
      rw [s.arena_consume]
      exact hNested
  | fault s p hNext => exact hNested
  | escape s p hValid hSome hStart hStop =>
      exact hNested.of_same (Arena.kind?_attach _ _ · _) (Arena.range_attach _ _ · _)
  | parameters s p hLists =>
      exact hNested.of_same (Arena.kind?_attach _ _ · _) (Arena.range_attach _ _ · _)
  | intern s p text => exact hNested.of_same (fun _ => rfl) fun _ => rfl
  | make s p hGathers hValid hMeans hRange =>
      exact isNested_alloc _ hOrder hLimit hTiled hForest hNested hGathers
        fun back hInOrder hTiles hPrevious =>
          represents_make hGathers hMeans hRange hInOrder hTiles hPrevious
  | ungroup s p hMeans => exact isNested_ungroup hMeans hOrder hLimit hTiled hForest hNested
  | @reject s p f hValid =>
      have hReported : (s.report (f.message g.symbols s.previous.range)).2.arena = s.arena := rfl
      have hNode := isNested_alloc s.previous.range hOrder hLimit
        (hTiled.of_same rfl rfl ⟨.refl _, fun _ => .refl _⟩ fun _ => rfl)
        (hForest.of_same rfl (fun _ => rfl) fun _ => rfl) (hReported ▸ hNested)
        (.children (.invalid s.previous.symbol)) fun back hInOrder hTiles _ =>
          represents_reject s.previous.symbol hInOrder hTiles
      exact hNode.of_same (Arena.kind?_attach _ _ · _) (Arena.range_attach _ _ · _)
  | @pass s p first rest hReason =>
      refine isNested_alloc _ hOrder hLimit hTiled hForest hNested ?_
        fun back hInOrder hTiles hPrevious => represents_pass hInOrder hTiles hPrevious
      rw [Piece.nodes_map_token]
      exact .children (.invalid first.symbol)

theorem Builds.isNested (h : g.Builds floor b c) (hOrder : ∀ m, AreInOrder (tokens.take m))
    (hLimit : ∀ m, ∀ τ ∈ tokens.take m, τ.range.span.stop ≤ limit)
    (hTiled : b.IsTiled g tokens n) (hForest : b.IsForest left)
    (hNested : b.session.arena.IsNested limit) : c.session.arena.IsNested limit := by
  induction h with
  | refl => exact hNested
  | tail hBefore hLast ih =>
      obtain ⟨m, -, hHere⟩ := Builds.exists_isTiled hBefore hOrder hTiled
      obtain ⟨left', hThere⟩ := Builds.exists_isForest hBefore hForest
      exact hLast.isNested hOrder hLimit hHere hThere ih

/-- Ranges nest and siblings are in source order, whether there are errors in the source or not. No
range runs backwards or past the end of the source; every node covers its children, which lie one
behind the other; and a walk from the root meets each node below it once, in the order in which they
start. -/
theorem ranges_of_parse? {rules : Rules} {options : Options}
    (hRules : rules.grammar options = .ok g) (hBuiltIn : g.hasBuiltInParselets = true)
    (hLiterals : ∀ rule ∈ g.lexicon.literals, rule.isBuiltIn = true)
    (hSpellings : ∀ p ∈ g.lexicon.punctuators.entries, p.spelling.head? ≠ some '#')
    {filename source : String} {p : Parsed} (h : g.parse? filename source = some p) :
    (∀ id kind, p.arena.kind? id = some kind →
      (p.arena.range id).span.start ≤ (p.arena.range id).span.stop ∧
      (p.arena.range id).span.stop ≤ Text.byteLength source.toList ∧
      (∀ child ∈ kind.children, (p.arena.range child).span.IsWithin (p.arena.range id).span) ∧
      kind.children.Pairwise fun x y =>
        (p.arena.range x).span.stop ≤ (p.arena.range y).span.start) ∧
    ∃ order, p.arena.walk? p.root = some order ∧ order.Nodup ∧
      (∀ id, id ∈ order ↔ p.arena.Holds p.root id) ∧
      order.Pairwise fun x y => (p.arena.range x).span.start ≤ (p.arena.range y).span.start := by
  obtain ⟨⟨root, t⟩, hSession, rfl⟩ := Option.map_eq_some_iff.mp h
  have hLayout := isLayout_ofSource (isOrdinary_of_rules hRules hLiterals hSpellings) source.toList
  obtain ⟨front, -, -, hBuilds⟩ := exists_builds_parseSession? hBuiltIn hSession
  have hNested : t.arena.IsNested (Text.byteLength source.toList) := by
    refine Builds.isNested hBuilds hLayout.areInOrder_take (fun m τ hMem => ?_) (.empty g _)
      (.empty _ _) (.empty _)
    obtain ⟨i, rfl⟩ := exists_get_of_mem_take hMem
    exact hLayout.stop_le i
  obtain ⟨left, hForest⟩ := exists_isForest_of_parseSession? hBuiltIn hSession
  obtain ⟨order, hWalk, hNodup, hMeets⟩ := hForest.exists_walk? List.mem_cons_self
  refine ⟨fun id kind hKind => ?_, order, hWalk, hNodup, hMeets,
    hNested.pairwise_walkWithin hWalk⟩
  obtain ⟨hForward, hLimit⟩ := hNested.forward hKind
  obtain ⟨hWithin, hOrdered⟩ := hNested.lays hKind
  exact ⟨hForward, hLimit, hWithin, hOrdered⟩

end Grammar

namespace Sample

open Grammar

/-- A text with groups in a group, a call that goes wrong and a statement that lacks its end. -/
def nestedText : String := "x = f((((a)) + 'é', $; ) \x7b y z; \x7d 2 *"

/-- The ranges of its tree nest although there are errors in it. -/
theorem ranges_of_parse?_nestedText :
    ∃ p, operatorGrammar.parse? "nested" nestedText = some p ∧
      p.document.diagnostics.hasErrors = true ∧
      (∀ id kind, p.arena.kind? id = some kind →
        (p.arena.range id).span.start ≤ (p.arena.range id).span.stop ∧
        (p.arena.range id).span.stop ≤ Text.byteLength nestedText.toList ∧
        (∀ child ∈ kind.children, (p.arena.range child).span.IsWithin (p.arena.range id).span) ∧
        kind.children.Pairwise fun x y =>
          (p.arena.range x).span.stop ≤ (p.arena.range y).span.start) ∧
      ∃ order, p.arena.walk? p.root = some order ∧ order.Nodup ∧
        (∀ id, id ∈ order ↔ p.arena.Holds p.root id) ∧
        order.Pairwise fun x y => (p.arena.range x).span.start ≤ (p.arena.range y).span.start := by
  have hRules : operators.grammar .standard = .ok operatorGrammar :=
    Except.eq_ok_getD (by decide +kernel) default
  have hParsed : (operatorGrammar.parse? "nested" nestedText).any
      (·.document.diagnostics.hasErrors) = true := by decide +kernel
  obtain ⟨p, hResult, hErrors⟩ := (Option.any_eq_true _ _).mp hParsed
  exact ⟨p, hResult, hErrors, ranges_of_parse? hRules (by decide +kernel) (by decide +kernel)
    (by decide +kernel) hResult⟩

end Sample

end Precedence
