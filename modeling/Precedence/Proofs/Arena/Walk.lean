import Mathlib.Data.List.Forall2
import Precedence.Arena.Dump
import Precedence.Proofs.Arena.Descent

/-!
Walks over the nodes below a node. Where every child is older than its parent, a walk from any node
comes to its end within the depth that the arena allows, and it meets just what the node holds.
-/
namespace Precedence.Arena

variable {a : Arena} {id x : NodeId} {depth : Nat} {order : List NodeId}

/-- Every child is older than its parent. -/
def IsDescending (a : Arena) : Prop :=
  ∀ parent child, a.Lists parent child → child.index < parent.index

/-- What a node holds is the node itself or older. -/
theorem IsDescending.index_le (h : a.IsDescending) (hHolds : a.Holds id x) :
    x.index ≤ id.index := by
  induction hHolds with
  | refl => exact Nat.le_refl _
  | tail _ hLists ih => exact Nat.le_trans (Nat.le_of_lt (h _ _ hLists)) ih

/-- Nothing lists the youngest node. -/
theorem IsDescending.not_lists_youngest (h : a.IsDescending) (hYoungest : a.size ≤ id.index + 1)
    (parent : NodeId) : ¬ a.Lists parent id := by
  intro hLists
  have hLess := h parent id hLists
  obtain ⟨kind, hKind, -⟩ := hLists
  have hBound := index_lt_of_kind? hKind
  omega

theorem contains_of_kind? {kind : NodeKind} (h : a.kind? id = some kind) : a.contains id = true :=
  decide_eq_true (index_lt_of_kind? h)

theorem exists_kind_iff : (∃ kind, a.kind? id = some kind) ↔ a.contains id = true := by
  constructor
  · rintro ⟨kind, hKind⟩
    exact contains_of_kind? hKind
  · intro hThere
    have hLess : id.index < a.nodes.size := of_decide_eq_true hThere
    have hNode : a.node? id = some a.nodes[id.index] := Array.getElem?_eq_getElem hLess
    exact ⟨_, by rw [kind?, hNode, Option.map_some]⟩

theorem Extends.contains {b : Arena} (h : a.Extends b) (hThere : a.contains id = true) :
    b.contains id = true := by
  obtain ⟨kind, hKind⟩ := exists_kind_iff.mpr hThere
  exact contains_of_kind? (h.kind hKind)

theorem contains_alloc_self (a : Arena) (kind : NodeKind) (range : SourceRange) :
    (a.alloc kind range).2.contains (a.alloc kind range).1 = true :=
  contains_of_kind? (a.kind?_alloc_self kind range)

/-- The results for the members of a list are the members of the list of results. -/
theorem mapM_eq_some_iff {α β : Type} {f : α → Option β} {l : List α} {results : List β} :
    l.mapM f = some results ↔ List.Forall₂ (fun x y => f x = some y) l results := by
  induction l generalizing results with
  | nil => simp [eq_comm]
  | cons x l ih =>
      simp only [List.mapM_cons, Option.pure_def, Option.bind_eq_bind, Option.bind_eq_some_iff,
        List.forall₂_cons_left_iff, Option.some.injEq, ih]
      constructor
      · rintro ⟨y, hHead, rest, hRest, rfl⟩
        exact ⟨y, rest, hHead, hRest, rfl⟩
      · rintro ⟨y, rest, hHead, hRest, rfl⟩
        exact ⟨y, hHead, rest, hRest, rfl⟩

/-- A walk is the node and then the walks of its children, one after the other. -/
theorem walkWithin_succ :
    a.walkWithin (depth + 1) id = some order ↔ ∃ kind below, a.kind? id = some kind ∧
      List.Forall₂ (fun child walk => a.walkWithin depth child = some walk) kind.children below ∧
        order = id :: below.flatten := by
  simp only [walkWithin, kind?, Option.bind_eq_bind, Option.bind_eq_some_iff,
    Option.map_eq_some_iff, mapM_eq_some_iff, Option.pure_def, Option.some.injEq]
  constructor
  · rintro ⟨node, hNode, below, hBelow, rfl⟩
    exact ⟨node.kind, below, ⟨node, hNode, rfl⟩, hBelow, rfl⟩
  · rintro ⟨_, below, ⟨node, hNode, rfl⟩, hBelow, rfl⟩
    exact ⟨node, hNode, below, hBelow, rfl⟩

theorem exists_walkWithin (h : a.IsDescending) (hThere : a.contains id = true)
    (hDepth : id.index < depth) : ∃ order, a.walkWithin depth id = some order := by
  induction depth generalizing id with
  | zero => exact absurd hDepth (Nat.not_lt_zero _)
  | succ depth ih =>
      obtain ⟨kind, hKind⟩ := exists_kind_iff.mpr hThere
      have hChildren : ∀ child ∈ kind.children, ∃ walk, a.walkWithin depth child = some walk := by
        intro child hMem
        have hLess := h id child ⟨kind, hKind, hMem⟩
        refine ih (decide_eq_true ?_) (by omega)
        exact Nat.lt_trans hLess (index_lt_of_kind? hKind)
      choose! walk hWalk using hChildren
      refine ⟨id :: (kind.children.map walk).flatten,
        walkWithin_succ.mpr ⟨kind, _, hKind, ?_, rfl⟩⟩
      rw [List.forall₂_map_right_iff, List.forall₂_same]
      exact hWalk

/-- What is in the parts of some things, one part for each, belongs to one of the things. -/
theorem mem_flatten_iff {α β : Type} {P : α → β → Prop} {l : List α} {parts : List (List β)}
    (h : List.Forall₂ (fun x part => ∀ y, y ∈ part ↔ P x y) l parts) (y : β) :
    y ∈ parts.flatten ↔ ∃ x ∈ l, P x y := by
  induction h with
  | nil => simp
  | cons hPart _ ih => simp only [List.flatten_cons, List.mem_append, hPart, ih, List.mem_cons,
      exists_eq_or_imp]

/-- What is related within parts, and from each part to the later ones, is related throughout. -/
theorem pairwise_flatten {α β : Type} {P : α → β → Prop} {R : β → β → Prop} {l : List α}
    {parts : List (List β)} (h : List.Forall₂ (fun x part => ∀ y, y ∈ part ↔ P x y) l parts)
    (hParts : List.Forall₂ (fun _ part => part.Pairwise R) l parts)
    (hApart : l.Pairwise fun x x' => ∀ y y', P x y → P x' y' → R y y') :
    parts.flatten.Pairwise R := by
  induction h with
  | nil => exact List.Pairwise.nil
  | @cons x part l parts hPart hRest ih =>
      obtain ⟨hWithin, hLater⟩ := List.forall₂_cons.mp hParts
      obtain ⟨hFirst, hOthers⟩ := List.pairwise_cons.mp hApart
      refine List.pairwise_append.mpr ⟨hWithin, ih hLater hOthers, fun y hMem y' hMem' => ?_⟩
      obtain ⟨x', hX', hHas⟩ := (mem_flatten_iff hRest y').mp hMem'
      exact hFirst x' hX' y y' ((hPart y).mp hMem) hHas

/-- A walk meets what its node holds, and nothing else. -/
theorem mem_walkWithin (h : a.walkWithin depth id = some order) (x : NodeId) :
    x ∈ order ↔ a.Holds id x := by
  induction depth generalizing id order x with
  | zero => cases h
  | succ depth ih =>
      obtain ⟨kind, below, hKind, hBelow, rfl⟩ := walkWithin_succ.mp h
      rw [List.mem_cons, mem_flatten_iff (hBelow.imp fun _ _ hWalk => ih hWalk), Holds,
        Relation.ReflTransGen.cases_head_iff, eq_comm]
      refine or_congr_right ⟨?_, ?_⟩
      · rintro ⟨child, hChild, hHolds⟩
        exact ⟨child, ⟨kind, hKind, hChild⟩, hHolds⟩
      · rintro ⟨child, ⟨other, hOther, hChild⟩, hHolds⟩
        cases hKind.symm.trans hOther
        exact ⟨child, hChild, hHolds⟩

end Precedence.Arena
