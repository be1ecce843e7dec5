import Precedence.Proofs.Arena.Forest
import Precedence.Proofs.Assembly.Characters

/-!
The result of a parse is a tree. At every moment the nodes on the bench are the roots of a forest:
a node that is made takes the last of them for its children. Only a function that takes over the
items of a tuple leaves a node behind, namely the tuple.
-/
namespace Precedence

open Relation Session

/-- The nodes on the bench are the roots of a forest. They have no parents, and nothing lists them.
What was left behind are tuples, each paired with the function that has its items. -/
structure Bench.IsForest (b : Bench) (left : List (NodeId × NodeId)) : Prop where
  forest : b.session.arena.IsForest (Piece.nodes b.pieces) (left.map (·.1))
  free : ∀ id ∈ Piece.nodes b.pieces, b.session.arena.parent? id = none ∧
    ∀ parent, ¬ b.session.arena.Lists parent id
  heirs : ∀ entry ∈ left, ∃ items body, b.session.arena.kind? entry.1 = some (.tuple items) ∧
    b.session.arena.kind? entry.2 = some (.lambda items body)
  apart : (left.map (·.2)).Nodup

namespace Bench.IsForest

variable {s t : Session} {p q : List Piece} {left : List (NodeId × NodeId)} {kind : NodeKind}

theorem empty (lx : Lexicon) (source : List Char) : IsForest ⟨ofSource lx source, []⟩ [] :=
  ⟨.empty, by simp, by simp, List.nodup_nil⟩

/-- What changes no kind, no parent and no node on the bench changes no forest. -/
theorem of_same (h : IsForest ⟨s, p⟩ left) (hNodes : Piece.nodes q = Piece.nodes p)
    (hKind : ∀ id, t.arena.kind? id = s.arena.kind? id)
    (hParent : ∀ id, t.arena.parent? id = s.arena.parent? id) : IsForest ⟨t, q⟩ left where
  forest := hNodes ▸ h.forest.of_same hKind hParent
  free := by
    simp only [hNodes, hParent, Arena.Lists, hKind]
    exact h.free
  heirs := by
    simp only [hKind]
    exact h.heirs
  apart := h.apart

/-- The children of a node that is made of the last pieces are roots, once the tuple is left behind
whose items it takes. -/
theorem exists_release (h : IsForest ⟨s, p ++ q⟩ left)
    (hGathers : s.arena.Gathers (Piece.nodes q) kind) (range : SourceRange) :
    ∃ left' : List (NodeId × NodeId),
      s.arena.IsForest (Piece.nodes p ++ kind.children) (left'.map (·.1)) ∧
      (∀ entry ∈ left', ∃ items body,
        (s.arena.alloc kind range).2.kind? entry.1 = some (.tuple items) ∧
        (s.arena.alloc kind range).2.kind? entry.2 = some (.lambda items body)) ∧
      (left'.map (·.2)).Nodup := by
  have hExtends := s.arena.extends_alloc kind range
  have hHeirs : ∀ entry ∈ left, ∃ items body,
      (s.arena.alloc kind range).2.kind? entry.1 = some (.tuple items) ∧
      (s.arena.alloc kind range).2.kind? entry.2 = some (.lambda items body) := by
    intro entry hMem
    obtain ⟨items, body, hTuple, hLambda⟩ := h.heirs entry hMem
    exact ⟨items, body, hExtends.kind hTuple, hExtends.kind hLambda⟩
  have hForest : s.arena.IsForest (Piece.nodes p ++ Piece.nodes q) (left.map (·.1)) :=
    Piece.nodes_append p q ▸ h.forest
  generalize Piece.nodes q = ids at hGathers hForest
  cases hGathers with
  | children => exact ⟨left, hForest, hHeirs, h.apart⟩
  | @parameters tuple body items hTuple hNames =>
      have hLast : s.arena.IsForest ((Piece.nodes p ++ [body]) ++ [tuple]) (left.map (·.1)) := by
        apply hForest.perm
        rw [List.append_assoc]
        exact (List.Perm.swap body tuple []).append_left _
      have hReleased : s.arena.IsForest (Piece.nodes p ++ (items ++ [body]))
          (tuple :: left.map (·.1)) := by
        apply (hLast.release hTuple).perm
        rw [List.append_assoc]
        exact List.perm_append_comm.append_left _
      refine ⟨(tuple, ⟨s.arena.size⟩) :: left, hReleased, ?_, ?_⟩
      · rw [List.forall_mem_cons]
        exact ⟨⟨items, body, hExtends.kind hTuple, s.arena.kind?_alloc_self _ range⟩, hHeirs⟩
      · refine List.nodup_cons.mpr ⟨fun hMem => ?_, h.apart⟩
        obtain ⟨entry, hEntry, hSame⟩ := List.mem_map.mp hMem
        obtain ⟨_, _, -, hLambda⟩ := h.heirs entry hEntry
        exact Arena.ne_of_contains (Arena.contains_of_kind? hLambda) hSame

/-- A node that is made of the last pieces is a root in their place. -/
theorem exists_alloc (h : IsForest ⟨s, p ++ q⟩ left)
    (hGathers : s.arena.Gathers (Piece.nodes q) kind) (range : SourceRange) :
    ∃ left', IsForest ⟨(s.alloc kind range).2, p ++ [.node (s.alloc kind range).1]⟩ left' := by
  obtain ⟨left', hForest, hHeirs, hApart⟩ := h.exists_release hGathers range
  refine ⟨left', ?_, fun id hMem => ?_, hHeirs, hApart⟩
  · rw [Piece.nodes_append]
    exact hForest.alloc range
  · rw [Piece.nodes_append] at hMem
    rcases List.mem_append.mp hMem with hOld | hNew
    · have hNotChild : id ∉ kind.children := fun hChild =>
        (List.nodup_append.mp hForest.distinct).2.2 id hOld id hChild rfl
      obtain ⟨hFree, hUnlisted⟩ := h.free id (by
        rw [Piece.nodes_append]
        exact List.mem_append_left _ hOld)
      refine ⟨?_, fun parent hLists => (Arena.lists_alloc_cases hLists).elim
        (fun hNew => hNotChild hNew.2) (hUnlisted parent)⟩
      exact (s.arena.parent?_alloc kind range id).trans
        ((if_neg fun hBoth => hNotChild hBoth.1).trans hFree)
    · obtain rfl := List.mem_singleton.mp hNew
      refine ⟨s.arena.parent?_alloc_new kind range, fun parent => ?_⟩
      exact (hForest.alloc range).descending.not_lists_youngest
        (Nat.le_of_eq (s.arena.size_alloc kind range)) parent

/-- A walk from a root meets each node below it once and no other. -/
theorem exists_walk? {root : NodeId} (h : IsForest ⟨s, p⟩ left) (hMem : root ∈ Piece.nodes p) :
    ∃ order, s.arena.walk? root = some order ∧ order.Nodup ∧
      ∀ id, id ∈ order ↔ s.arena.Holds root id := by
  obtain ⟨hThere, hKept, -⟩ := h.forest.root root hMem
  obtain ⟨order, hWalk⟩ := Arena.exists_walkWithin h.forest.descending hThere
    (of_decide_eq_true hThere)
  exact ⟨order, hWalk, h.forest.nodup_walkWithin hKept hWalk, Arena.mem_walkWithin hWalk⟩

end Bench.IsForest

namespace Grammar

variable {g : Grammar} {floor : Nat} {b c : Bench} {left : List (NodeId × NodeId)}

/-- Whatever is done at the bench, its nodes are the roots of a forest. -/
theorem Act.exists_isForest (h : g.Act floor b c) (hForest : b.IsForest left) :
    ∃ left', c.IsForest left' := by
  cases h with
  | look s p =>
      refine ⟨left, hForest.of_same rfl ?_ ?_⟩
      all_goals simp
  | consume s p =>
      refine ⟨left, hForest.of_same (by simp) ?_ ?_⟩
      all_goals simp
  | fault s p hNext => exact ⟨left, hForest.of_same rfl (fun _ => rfl) fun _ => rfl⟩
  | escape s p hValid hSome hStart hStop =>
      exact ⟨left, hForest.of_same rfl (s.arena.kind?_attach _ · _) (s.arena.parent?_attach _ · _)⟩
  | parameters s p hLists =>
      exact ⟨left, hForest.of_same rfl (s.arena.kind?_attach _ · _) (s.arena.parent?_attach _ · _)⟩
  | intern s p text => exact ⟨left, hForest.of_same rfl (fun _ => rfl) fun _ => rfl⟩
  | make s p hGathers hValid hMeans hRange => exact hForest.exists_alloc hGathers _
  | ungroup s p hMeans =>
      exact ⟨left, hForest.of_same (by simp) (s.arena.kind?_setRange _ · _)
        (s.arena.parent?_setRange _ · _)⟩
  | @reject s p f hValid =>
      have hReported : Bench.IsForest ⟨(s.report (f.message g.symbols s.previous.range)).2,
          p ++ [.token s.previous]⟩ left := hForest.of_same rfl (fun _ => rfl) fun _ => rfl
      obtain ⟨left', hNode⟩ := hReported.exists_alloc
        (.children (.invalid s.previous.symbol)) s.previous.range
      exact ⟨left', hNode.of_same rfl (Arena.kind?_attach _ _ · _) (Arena.parent?_attach _ _ · _)⟩
  | @pass s p first rest hReason =>
      refine hForest.exists_alloc ?_ _
      rw [Piece.nodes_map_token]
      exact .children (.invalid first.symbol)

theorem Builds.exists_isForest (h : g.Builds floor b c) (hForest : b.IsForest left) :
    ∃ left', c.IsForest left' := by
  induction h with
  | refl => exact ⟨left, hForest⟩
  | tail _ hLast ih =>
      obtain ⟨left', hBefore⟩ := ih
      exact hLast.exists_isForest hBefore

/-- At the end of a parse its root is the only root of a forest. -/
theorem exists_isForest_of_parseSession? (hBuiltIn : g.hasBuiltInParselets = true)
    {source : String} {root : NodeId} {t : Session} (h : g.parseSession? source = some (root, t)) :
    ∃ left, Bench.IsForest ⟨t, [.node root]⟩ left := by
  obtain ⟨front, -, hFront, hBuilds⟩ := exists_builds_parseSession? hBuiltIn h
  obtain ⟨left, hForest⟩ := Builds.exists_isForest hBuilds (.empty g.lexicon source.toList)
  exact ⟨left, hForest.of_same (by simp [hFront]) (fun _ => rfl) fun _ => rfl⟩

/-- The result of a parse is a tree and no node is lost. Every child is older than the node that
lists it. The root has no parent; every other node below it is listed once, by its parent and by no
other node. A walk from the root meets each node below it once. Every node is below the root, but
for tuples whose items have become the parameters of functions, each of another one. -/
theorem tree_of_parse? (hBuiltIn : g.hasBuiltInParselets = true) {filename source : String}
    {p : Parsed} (h : g.parse? filename source = some p) :
    (∀ parent child, p.arena.Lists parent child → child.index < parent.index) ∧
    p.arena.parent? p.root = none ∧
    (∀ id, p.arena.Holds p.root id → id ≠ p.root →
      ∃ parent kind, p.arena.Holds p.root parent ∧ p.arena.kind? parent = some kind ∧
        kind.children.count id = 1 ∧ p.arena.parent? id = some parent ∧
        ∀ other, p.arena.Holds p.root other → p.arena.Lists other id → other = parent) ∧
    (∃ order, p.arena.walk? p.root = some order ∧ order.Nodup ∧
      ∀ id, id ∈ order ↔ p.arena.Holds p.root id) ∧
    ∃ left : List (NodeId × NodeId), (left.map (·.2)).Nodup ∧
      (∀ entry ∈ left, ∃ items body, p.arena.kind? entry.1 = some (.tuple items) ∧
        p.arena.kind? entry.2 = some (.lambda items body)) ∧
      ∀ id, p.arena.contains id = true → (p.arena.Holds p.root id ↔ id ∉ left.map (·.1)) := by
  obtain ⟨⟨root, t⟩, hSession, rfl⟩ := Option.map_eq_some_iff.mp h
  obtain ⟨left, hRoots⟩ := exists_isForest_of_parseSession? hBuiltIn hSession
  have hWalk := hRoots.exists_walk? List.mem_cons_self
  obtain ⟨hForest, hFree, hHeirs, hApart⟩ := hRoots
  obtain ⟨-, hKept, -⟩ := hForest.root root List.mem_cons_self
  refine ⟨hForest.descending, (hFree root List.mem_cons_self).1,
    fun id hHolds hBelow => hForest.exists_parent hKept hHolds hBelow, hWalk,
    left, hApart, hHeirs, fun id hId => ?_⟩
  exact ⟨hForest.kept_of_holds hKept, hForest.holds_of_kept hId⟩

end Grammar

namespace Sample

open Grammar

/-- Rules of names, sums, tuples and functions. -/
def tuplesOnly : Rules where
  lexical := [.ignore .blanks]
  declarations := Declaration.names ++ [.group "(" ")" (some ",") false,
    .lambda "->" .assignment, .infixOperator "+" .left .sum, .block "#sof" "#eof" (some ";") false]

/-- The grammar of names, sums, tuples and functions, in statements. -/
def tupleGrammar : Grammar := (tuplesOnly.grammar .standard).toOption.getD default

/-- Two functions with parameter lists, a tuple with a bad item, and a group that is left open. -/
def tupleText : String := "(a, b) -> a + (b, $); () -> (x"

/-- Of thirteen nodes two are left behind, one by each function, and the others are in the tree. -/
theorem tree_of_parse?_tupleText :
    tupleGrammar.hasBuiltInParselets = true ∧
      ∃ p, tupleGrammar.parse? "tuples" tupleText = some p ∧ p.arena.size = 13 ∧
        p.arena.parent? p.root = none ∧
        (∃ order, p.arena.walk? p.root = some order ∧ order.length = 11 ∧ order.Nodup ∧
          ∀ id, id ∈ order ↔ p.arena.Holds p.root id) ∧
        ∃ left : List (NodeId × NodeId), (left.map (·.2)).Nodup ∧
          (∀ entry ∈ left, ∃ items body, p.arena.kind? entry.1 = some (.tuple items) ∧
            p.arena.kind? entry.2 = some (.lambda items body)) ∧
          ∀ id, p.arena.contains id = true → (p.arena.Holds p.root id ↔ id ∉ left.map (·.1)) := by
  have hBuiltIn : tupleGrammar.hasBuiltInParselets = true := by decide +kernel
  have hParsed : (tupleGrammar.parse? "tuples" tupleText).any (fun p =>
      p.arena.size == 13 && (p.arena.walk? p.root).any (·.length == 11)) = true := by
    decide +kernel
  obtain ⟨p, hResult, hShape⟩ := (Option.any_eq_true _ _).mp hParsed
  simp only [Bool.and_eq_true, beq_iff_eq, Option.any_eq_true] at hShape
  obtain ⟨hSize, order, hOrder, hLength⟩ := hShape
  obtain ⟨-, hRoot, -, ⟨walk, hWalk, hNodup, hMeets⟩, hLeft⟩ := tree_of_parse? hBuiltIn hResult
  cases hOrder.symm.trans hWalk
  exact ⟨hBuiltIn, p, hResult, hSize, hRoot, ⟨order, hWalk, hLength, hNodup, hMeets⟩, hLeft⟩

end Sample

end Precedence
