import Mathlib.Logic.Relation
import Precedence.Proofs.Arena.Growth

/-!
What lies below a node, and where it lies in the source. Kinds never change, so what is below a node
stays below it; the range of a node changes only where a range is set.
-/
namespace Precedence.Arena

open Relation

/-- One node lists another among its children. -/
def Lists (a : Arena) (parent child : NodeId) : Prop :=
  ∃ kind, a.kind? parent = some kind ∧ child ∈ kind.children

/-- A node is part of the tree under another one, which may be the node itself. -/
abbrev Holds (a : Arena) : NodeId → NodeId → Prop := ReflTransGen a.Lists

theorem Extends.lists {a b : Arena} (h : a.Extends b) {parent child : NodeId}
    (hLists : a.Lists parent child) : b.Lists parent child := by
  obtain ⟨kind, hKind, hMem⟩ := hLists
  exact ⟨kind, h.kind hKind, hMem⟩

theorem Extends.holds {a b : Arena} (h : a.Extends b) {root id : NodeId}
    (hHolds : a.Holds root id) : b.Holds root id :=
  ReflTransGen.mono (fun _ _ hLists => h.lists hLists) _ _ hHolds

theorem Extends.size_le {a b : Arena} (h : a.Extends b) : a.size ≤ b.size := by
  apply Nat.le_of_not_lt
  intro hLess
  have hNode : a.node? ⟨b.size⟩ = some a.nodes[b.size] := Array.getElem?_eq_getElem hLess
  have hKind : a.kind? ⟨b.size⟩ = some a.nodes[b.size].kind := by rw [kind?, hNode, Option.map_some]
  exact absurd (index_lt_of_kind? (h.kind hKind)) (Nat.lt_irrefl _)

/-! ### Ranges -/

/-- A number without a node has the range of nothing. -/
theorem range_of_kind?_eq_none {a : Arena} {id : NodeId} (h : a.kind? id = none) :
    a.range id = .synthetic := by
  rw [range, Option.map_eq_none_iff.mp h]
  rfl

theorem range_update (a : Arena) (id other : NodeId) {f : Node → Node}
    (hKeeps : ∀ node, (f node).range = node.range) :
    (a.update id f).range other = a.range other := by
  rw [range, a.map_node?_update id other hKeeps]
  rfl

/-- A new node has the range it was made with. The others keep theirs. -/
theorem range_alloc (a : Arena) (kind : NodeKind) (range : SourceRange) (id : NodeId) :
    (a.alloc kind range).2.range id = if id.index = a.size then range else a.range id := by
  rw [Arena.range, a.map_node?_alloc kind range id fun _ _ => rfl]
  split
  · rfl
  · rfl

theorem range_alloc_of_lt (a : Arena) (kind : NodeKind) (range : SourceRange) {id : NodeId}
    (h : id.index < a.size) : (a.alloc kind range).2.range id = a.range id := by
  rw [range_alloc, if_neg (Nat.ne_of_lt h)]

@[simp] theorem range_alloc_self (a : Arena) (kind : NodeKind) (range : SourceRange) :
    (a.alloc kind range).2.range (a.alloc kind range).1 = range := by
  rw [range_alloc, alloc_fst, if_pos rfl]

@[simp] theorem range_attach (a : Arena) (id other : NodeId) (message : MessageId) :
    (a.attach id message).range other = a.range other :=
  a.range_update id other fun _ => rfl

@[simp] theorem range_internName (a : Arena) (text : String) (id : NodeId) :
    (a.internName text).2.range id = a.range id := rfl

theorem range_setRange_self (a : Arena) {id : NodeId} (range : SourceRange)
    (h : id.index < a.size) : (a.setRange id range).range id = range := by
  have hNode : a.nodes[id.index]? = some a.nodes[id.index] := Array.getElem?_eq_getElem h
  simp only [Arena.range, node?, setRange, update, Array.getElem?_modify, if_pos, hNode,
    Option.map_some, Option.getD_some]

theorem range_setRange_of_ne (a : Arena) {id other : NodeId} (range : SourceRange)
    (h : other ≠ id) : (a.setRange id range).range other = a.range other := by
  have hIndex : id.index ≠ other.index := fun hSame => h (by cases id; cases other; simp_all)
  simp only [Arena.range, node?, setRange, update, Array.getElem?_modify, if_neg hIndex]

@[simp] theorem size_setRange (a : Arena) (id : NodeId) (range : SourceRange) :
    (a.setRange id range).size = a.size :=
  a.size_update id _

@[simp] theorem size_attach (a : Arena) (id : NodeId) (message : MessageId) :
    (a.attach id message).size = a.size :=
  a.size_update id _

@[simp] theorem size_alloc (a : Arena) (kind : NodeKind) (range : SourceRange) :
    (a.alloc kind range).2.size = a.size + 1 := by
  have hSize : (a.adopt ⟨a.size⟩ kind.children).nodes.size = a.size := a.size_adopt _ _
  change ((a.adopt ⟨a.size⟩ kind.children).nodes.push ⟨kind, range, none, []⟩).size = _
  rw [Array.size_push, hSize]

end Precedence.Arena
