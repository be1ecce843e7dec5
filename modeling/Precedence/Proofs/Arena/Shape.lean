import Mathlib.Data.List.Forall2
import Precedence.Parselet.Lambda
import Precedence.Proofs.Arena.Growth

/-!
Trees without numbers. A node is the tree of what it says of itself and of the trees of its children
in order. Its range and its messages are no part of that, so two arenas can hold the same tree.
-/
namespace Precedence

/-- What a node says of itself: its shape without the numbers of its children, and names in
writing. -/
inductive NodeLabel where
  | invalid (symbol : Symbol)
  | literal (value : Literal)
  | name (text : String)
  | prefixed (op : Symbol)
  | postfixed (op : Symbol)
  | binary (op : Symbol)
  | ternary
  | group
  | tuple
  | call
  | lambda
  | block (separator : Option Symbol) (terminator : Symbol)
  | statement
  | tagged (tag : Symbol)
deriving DecidableEq

/-- A tree without numbers. -/
inductive SyntaxTree where
  | node (label : NodeLabel) (children : List SyntaxTree)

namespace Arena

/-- What a node of a kind says of itself, if its name is one of the arena. -/
def label? (a : Arena) : NodeKind → Option NodeLabel
  | .invalid symbol => some (.invalid symbol)
  | .literal value => some (.literal value)
  | .name id => (a.names.text? id.index).map .name
  | .prefixed op _ => some (.prefixed op)
  | .postfixed op _ => some (.postfixed op)
  | .binary _ op _ => some (.binary op)
  | .ternary _ _ _ => some .ternary
  | .group _ => some .group
  | .tuple _ => some .tuple
  | .call _ _ => some .call
  | .lambda _ _ => some .lambda
  | .block _ separator terminator => some (.block separator terminator)
  | .statement _ => some .statement
  | .tagged tag _ => some (.tagged tag)

mutual

/-- A node is a tree: it says the same of itself, and so do the nodes below it. -/
def IsTree (a : Arena) : SyntaxTree → NodeId → Prop
  | .node label children, id => ∃ kind, a.kind? id = some kind ∧ a.label? kind = some label ∧
      a.AreTrees children kind.children

/-- Nodes are trees, one for each and in order. -/
def AreTrees (a : Arena) : List SyntaxTree → List NodeId → Prop
  | [], ids => ids = []
  | tree :: trees, ids => ∃ id later, ids = id :: later ∧ a.IsTree tree id ∧ a.AreTrees trees later

end

theorem label?_mono {a b : Arena} (hGrows : a.Extends b) {kind : NodeKind} {label : NodeLabel}
    (h : a.label? kind = some label) : b.label? kind = some label := by
  cases kind with
  | name id =>
      obtain ⟨text, hText, hLabel⟩ := Option.map_eq_some_iff.mp h
      rw [label?, hGrows.text? hText, Option.map_some, hLabel]
  | _ => exact h

mutual

/-- A node that is a tree stays it while the arena grows. -/
theorem IsTree.mono {a b : Arena} (hGrows : a.Extends b) :
    ∀ {tree : SyntaxTree} {id : NodeId}, a.IsTree tree id → b.IsTree tree id
  | .node _ _, _, ⟨kind, hKind, hLabel, hChildren⟩ =>
      ⟨kind, hGrows.kind hKind, label?_mono hGrows hLabel, hChildren.mono hGrows⟩

theorem AreTrees.mono {a b : Arena} (hGrows : a.Extends b) :
    ∀ {trees : List SyntaxTree} {ids : List NodeId}, a.AreTrees trees ids → b.AreTrees trees ids
  | [], _, hNone => hNone
  | _ :: _, _, ⟨id, later, hIds, hTree, hRest⟩ =>
      ⟨id, later, hIds, hTree.mono hGrows, hRest.mono hGrows⟩

end

/-- Nodes of two arenas are the same tree. -/
def SameTree (a b : Arena) (id id' : NodeId) : Prop :=
  ∃ tree, a.IsTree tree id ∧ b.IsTree tree id'

/-- Nodes of two arenas are the same trees, each with the one at its place. -/
abbrev SameTrees (a b : Arena) : List NodeId → List NodeId → Prop := List.Forall₂ (a.SameTree b)

variable {a b a' b' : Arena} {id id' : NodeId} {ids ids' : List NodeId} {kind kind' : NodeKind}

theorem SameTree.mono (h : a.SameTree b id id') (hGrows : a.Extends a') (hGrows' : b.Extends b') :
    a'.SameTree b' id id' := by
  obtain ⟨tree, hTree, hTree'⟩ := h
  exact ⟨tree, hTree.mono hGrows, hTree'.mono hGrows'⟩

theorem SameTrees.mono (h : a.SameTrees b ids ids') (hGrows : a.Extends a')
    (hGrows' : b.Extends b') : a'.SameTrees b' ids ids' :=
  h.imp fun _ _ hSame => hSame.mono hGrows hGrows'

theorem SameTrees.exists_areTrees (h : a.SameTrees b ids ids') :
    ∃ trees, a.AreTrees trees ids ∧ b.AreTrees trees ids' := by
  induction h with
  | nil => exact ⟨[], rfl, rfl⟩
  | cons hFirst _ ih =>
      obtain ⟨tree, hTree, hTree'⟩ := hFirst
      obtain ⟨trees, hTrees, hTrees'⟩ := ih
      exact ⟨tree :: trees, ⟨_, _, rfl, hTree, hTrees⟩, ⟨_, _, rfl, hTree', hTrees'⟩⟩

theorem AreTrees.sameTrees {trees : List SyntaxTree} (h : a.AreTrees trees ids)
    (h' : b.AreTrees trees ids') : a.SameTrees b ids ids' := by
  induction trees generalizing ids ids' with
  | nil =>
      obtain rfl := h
      obtain rfl := h'
      exact .nil
  | cons tree trees ih =>
      obtain ⟨_, _, rfl, hTree, hRest⟩ := h
      obtain ⟨_, _, rfl, hTree', hRest'⟩ := h'
      exact .cons ⟨tree, hTree, hTree'⟩ (ih hRest hRest')

/-- Nodes are the same tree exactly when they say the same of themselves and their children are the
same trees. -/
theorem sameTree_iff :
    a.SameTree b id id' ↔ ∃ kind kind' label, a.kind? id = some kind ∧ b.kind? id' = some kind' ∧
      a.label? kind = some label ∧ b.label? kind' = some label ∧
      a.SameTrees b kind.children kind'.children := by
  constructor
  · rintro ⟨⟨label, children⟩, ⟨kind, hKind, hLabel, hChildren⟩, kind', hKind', hLabel', hChildren'⟩
    exact ⟨kind, kind', label, hKind, hKind', hLabel, hLabel', hChildren.sameTrees hChildren'⟩
  · rintro ⟨kind, kind', label, hKind, hKind', hLabel, hLabel', hChildren⟩
    obtain ⟨trees, hTrees, hTrees'⟩ := hChildren.exists_areTrees
    exact ⟨.node label trees, ⟨kind, hKind, hLabel, hTrees⟩, kind', hKind', hLabel', hTrees'⟩

/-- New nodes that say the same of themselves and have the same children are the same tree. -/
theorem SameTree.alloc {label : NodeLabel} (hLabel : a.label? kind = some label)
    (hLabel' : b.label? kind' = some label)
    (hChildren : a.SameTrees b kind.children kind'.children) (range range' : SourceRange) :
    (a.alloc kind range).2.SameTree (b.alloc kind' range').2 (a.alloc kind range).1
      (b.alloc kind' range').1 := by
  have hGrows := a.extends_alloc kind range
  have hGrows' := b.extends_alloc kind' range'
  exact sameTree_iff.mpr ⟨kind, kind', label, a.kind?_alloc_self kind range,
    b.kind?_alloc_self kind' range', label?_mono hGrows hLabel, label?_mono hGrows' hLabel',
    hChildren.mono hGrows hGrows'⟩

/-! ### Parameters -/

theorem isName_of_label? {label : NodeLabel} (hKind : a.kind? id = some kind) :
    a.label? kind = some label → a.isName id = match label with
      | .name _ => true
      | _ => false := by
  intro hLabel
  rw [isName, hKind, Option.any_some]
  cases kind with
  | name number =>
      obtain ⟨text, -, rfl⟩ := Option.map_eq_some_iff.mp hLabel
      rfl
  | _ =>
      cases hLabel
      rfl

theorem SameTree.isName_eq (h : a.SameTree b id id') : a.isName id = b.isName id' := by
  obtain ⟨kind, kind', label, hKind, hKind', hLabel, hLabel', -⟩ := sameTree_iff.mp h
  rw [isName_of_label? hKind hLabel, isName_of_label? hKind' hLabel']

theorem SameTrees.all_isName_eq (h : a.SameTrees b ids ids') :
    ids.all a.isName = ids'.all b.isName := by
  induction h with
  | nil => rfl
  | cons hFirst _ ih => rw [List.all_cons, List.all_cons, hFirst.isName_eq, ih]

/-- What a node lists as parameters can be read off its label and its children. -/
theorem parameters?_of_label? {label : NodeLabel} (hKind : a.kind? id = some kind) :
    a.label? kind = some label → a.parameters? id = match label with
      | .name _ => some [id]
      | .group => if kind.children.all a.isName then some [id] else none
      | .tuple => if kind.children.all a.isName then some kind.children else none
      | _ => none := by
  intro hLabel
  rw [parameters?, hKind]
  cases kind with
  | name number =>
      obtain ⟨text, -, rfl⟩ := Option.map_eq_some_iff.mp hLabel
      rfl
  | group inner =>
      cases hLabel
      simp [NodeKind.children]
  | _ =>
      cases hLabel
      rfl

/-- The same tree lists the same parameters, or none in both arenas. -/
theorem SameTree.parameters (h : a.SameTree b id id') :
    (a.parameters? id).isSome = (b.parameters? id').isSome ∧
      a.SameTrees b ((a.parameters? id).getD [id]) ((b.parameters? id').getD [id']) := by
  obtain ⟨kind, kind', label, hKind, hKind', hLabel, hLabel', hChildren⟩ := sameTree_iff.mp h
  have hSelf : a.SameTrees b [id] [id'] := .cons h .nil
  rw [parameters?_of_label? hKind hLabel, parameters?_of_label? hKind' hLabel']
  cases label with
  | group =>
      dsimp only
      rw [hChildren.all_isName_eq]
      split
      · exact ⟨rfl, hSelf⟩
      · exact ⟨rfl, hSelf⟩
  | tuple =>
      dsimp only
      rw [hChildren.all_isName_eq]
      split
      · exact ⟨rfl, hChildren⟩
      · exact ⟨rfl, hSelf⟩
  | _ => exact ⟨rfl, hSelf⟩

end Arena

end Precedence
