import Precedence.Proofs.Arena.Forest

/-!
Parents in an arena that is used in any way. A node may list numbers that have no node yet, its own
number, or one number twice, and many nodes may list one child; so children can lead round in a
circle. Parents cannot: the parent of a node is the youngest of the nodes that list it and are
younger than the node itself. On the way from parent to parent the numbers grow, so the way ends.
-/
namespace Precedence.Arena

/-- Something that changes an arena. -/
inductive Edit where
  | alloc (kind : NodeKind) (range : SourceRange)
  | setRange (id : NodeId) (range : SourceRange)
  | attach (id : NodeId) (message : MessageId)
  | internName (text : String)

/-- The arena after a change. -/
def perform (a : Arena) : Edit → Arena
  | .alloc kind range => (a.alloc kind range).2
  | .setRange id range => a.setRange id range
  | .attach id message => a.attach id message
  | .internName text => (a.internName text).2

/-- The arena after changes one behind the other. -/
def performAll (a : Arena) (edits : List Edit) : Arena := edits.foldl perform a

/-- The kind of the node that a change makes, if it makes one. -/
def Edit.kind? : Edit → Option NodeKind
  | .alloc kind _ => some kind
  | _ => none

/-- Of the nodes that list a child and are younger than it, the youngest. -/
structure IsYoungestAbove (a : Arena) (child parent : NodeId) : Prop where
  lists : a.Lists parent child
  above : child.index < parent.index
  youngest (other : NodeId) : a.Lists other child → child.index < other.index →
    other.index ≤ parent.index

/-- The parent of every node is the youngest of those that list it and are younger. -/
structure HasYoungestParents (a : Arena) : Prop where
  some {child parent : NodeId} : a.parent? child = some parent → a.IsYoungestAbove child parent
  none {child : NodeId} : a.parent? child = none → ∀ other, a.Lists other child →
    other.index ≤ child.index

/-- The nodes are of the given kinds, in the order of their numbers. -/
structure HasKinds (a : Arena) (kinds : List NodeKind) : Prop where
  size : a.size = kinds.length
  kind? (id : NodeId) : a.kind? id = kinds[id.index]?

variable {a b : Arena} {child parent other : NodeId}

theorem IsYoungestAbove.eq (h : a.IsYoungestAbove child parent)
    (h' : a.IsYoungestAbove child other) : parent = other := by
  have hLe := h.youngest other h'.lists h'.above
  have hGe := h'.youngest parent h.lists h.above
  cases parent
  cases other
  exact congrArg NodeId.mk (Nat.le_antisymm hGe hLe)

/-! ### One change -/

/-- A node after a new one has been made lists what it did before, and the new one lists its
children. -/
theorem lists_alloc_iff {kind : NodeKind} {range : SourceRange} :
    (a.alloc kind range).2.Lists parent child ↔
      parent = ⟨a.size⟩ ∧ child ∈ kind.children ∨ a.Lists parent child := by
  constructor
  · exact lists_alloc_cases
  · rintro (⟨rfl, hMem⟩ | hBefore)
    · exact ⟨kind, a.kind?_alloc_self kind range, hMem⟩
    · exact (a.extends_alloc kind range).lists hBefore

theorem index_lt_of_lists (h : a.Lists parent child) : parent.index < a.size := by
  obtain ⟨kind, hKind, -⟩ := h
  exact index_lt_of_kind? hKind

namespace HasYoungestParents

theorem empty : Arena.empty.HasYoungestParents := by
  constructor
  · intro child parent hParent
    cases hParent
  · rintro child - other ⟨kind, hKind, -⟩
    cases hKind

/-- Parents and children are a matter of kinds and parents. -/
theorem of_same (h : a.HasYoungestParents) (hKind : ∀ id, b.kind? id = a.kind? id)
    (hParent : ∀ id, b.parent? id = a.parent? id) : b.HasYoungestParents := by
  have hLists (parent child : NodeId) : b.Lists parent child ↔ a.Lists parent child := by
    simp only [Lists, hKind]
  constructor
  · intro child parent hSome
    rw [hParent] at hSome
    obtain ⟨hParentLists, hAbove, hYoungest⟩ := h.some hSome
    exact ⟨(hLists _ _).mpr hParentLists, hAbove,
      fun other hOther => hYoungest other ((hLists _ _).mp hOther)⟩
  · intro child hNone other hOther
    rw [hParent] at hNone
    exact h.none hNone other ((hLists _ _).mp hOther)

/-- A new node is the parent of the children that exist, and is younger than all of them. What lists
a child that does not exist yet will not be younger than it. -/
theorem alloc (h : a.HasYoungestParents) (kind : NodeKind) (range : SourceRange) :
    (a.alloc kind range).2.HasYoungestParents := by
  have hBound {parent child : NodeId} (hLists : (a.alloc kind range).2.Lists parent child) :
      parent.index ≤ a.size := by
    have hLess := index_lt_of_lists hLists
    rw [size_alloc] at hLess
    exact Nat.le_of_lt_succ hLess
  constructor
  · intro child parent hSome
    rw [parent?_alloc] at hSome
    split at hSome
    · next hAdopted =>
      cases hSome
      refine ⟨lists_alloc_iff.mpr (.inl ⟨rfl, hAdopted.1⟩), of_decide_eq_true hAdopted.2, ?_⟩
      exact fun other hOther _ => hBound hOther
    · next hLeft =>
      obtain ⟨hLists, hAbove, hYoungest⟩ := h.some hSome
      refine ⟨lists_alloc_iff.mpr (.inr hLists), hAbove, fun other hOther hBelow => ?_⟩
      rcases lists_alloc_iff.mp hOther with ⟨rfl, hMem⟩ | hBefore
      · exact absurd ⟨hMem, decide_eq_true hBelow⟩ hLeft
      · exact hYoungest other hBefore hBelow
  · intro child hNone other hOther
    rw [parent?_alloc] at hNone
    split at hNone
    · cases hNone
    · next hLeft =>
      rcases lists_alloc_iff.mp hOther with ⟨rfl, hMem⟩ | hBefore
      · exact Nat.le_of_not_lt fun hBelow => hLeft ⟨hMem, decide_eq_true hBelow⟩
      · exact h.none hNone other hBefore

theorem perform (h : a.HasYoungestParents) (edit : Edit) :
    (a.perform edit).HasYoungestParents := by
  cases edit with
  | alloc kind range => exact h.alloc kind range
  | setRange id range =>
      exact h.of_same (fun other => a.kind?_setRange id other range)
        fun other => a.parent?_setRange id other range
  | attach id message =>
      exact h.of_same (fun other => a.kind?_attach id other message)
        fun other => a.parent?_attach id other message
  | internName text => exact h.of_same (fun _ => rfl) fun _ => rfl

end HasYoungestParents

namespace HasKinds

variable {kinds : List NodeKind}

theorem empty : Arena.empty.HasKinds [] := ⟨rfl, fun _ => rfl⟩

/-- A new node is of the kind that is asked for and has the next number; the others stay as they
are, and nothing else makes or changes a kind. -/
theorem perform (h : a.HasKinds kinds) (edit : Edit) :
    (a.perform edit).HasKinds (kinds ++ edit.kind?.toList) := by
  obtain ⟨hSize, hKind⟩ := h
  cases edit with
  | alloc kind range =>
      refine ⟨?_, fun id => ?_⟩
      · simp [Arena.perform, Edit.kind?, hSize]
      · simp only [Arena.perform, Edit.kind?, kind?_alloc, hKind, hSize, Option.toList_some]
        split
        · next hNew => simp [hNew]
        · next hOld =>
          rcases Nat.lt_or_gt_of_ne hOld with hLess | hGreater
          · rw [List.getElem?_append_left hLess]
          · rw [List.getElem?_eq_none (Nat.le_of_lt hGreater), List.getElem?_eq_none]
            rw [List.length_append, List.length_singleton]
            exact hGreater
  | setRange id range =>
      simp only [Edit.kind?, Option.toList_none, List.append_nil]
      exact ⟨(a.size_setRange id range).trans hSize,
        fun other => (a.kind?_setRange id other range).trans (hKind other)⟩
  | attach id message =>
      simp only [Edit.kind?, Option.toList_none, List.append_nil]
      exact ⟨(a.size_attach id message).trans hSize,
        fun other => (a.kind?_attach id other message).trans (hKind other)⟩
  | internName text =>
      simp only [Edit.kind?, Option.toList_none, List.append_nil]
      exact ⟨hSize, hKind⟩

theorem performAll (h : a.HasKinds kinds) (edits : List Edit) :
    (a.performAll edits).HasKinds (kinds ++ edits.filterMap Edit.kind?) := by
  induction edits generalizing a kinds with
  | nil =>
      rw [List.filterMap_nil, List.append_nil]
      exact h
  | cons edit edits ih =>
      have hMade : (edit :: edits).filterMap Edit.kind? =
          edit.kind?.toList ++ edits.filterMap Edit.kind? := by
        cases hKind : edit.kind? <;> simp [hKind]
      rw [hMade, ← List.append_assoc]
      exact ih (h.perform edit)

end HasKinds

/-- However an arena is made, the parent of every node is the youngest of those that list it and are
younger. -/
theorem hasYoungestParents_performAll (edits : List Edit) :
    (empty.performAll edits).HasYoungestParents := by
  suffices h : ∀ a : Arena, a.HasYoungestParents → (a.performAll edits).HasYoungestParents from
    h _ .empty
  intro a h
  induction edits generalizing a with
  | nil => exact h
  | cons edit edits ih => exact ih _ (h.perform edit)

/-! ### Ancestors -/

/-- From a node to its parent, and so on up to a node that has none. -/
inductive Ascends (a : Arena) : NodeId → List NodeId → Prop
  | root {id : NodeId} (hRoot : a.parent? id = none) : Ascends a id []
  | step {id parent : NodeId} {above : List NodeId} (hParent : a.parent? id = some parent)
      (hRest : Ascends a parent above) : Ascends a id (parent :: above)

namespace HasYoungestParents

/-- As many steps as there are younger nodes are enough to get up to a node without a parent. -/
theorem ascends_ancestorsUpTo (h : a.HasYoungestParents) {n : Nat} {id : NodeId}
    (hSteps : a.size ≤ id.index + n) : a.Ascends id (a.ancestorsUpTo n id) := by
  induction n generalizing id with
  | zero =>
      refine .root (Option.eq_none_iff_forall_ne_some.mpr fun parent hParent => ?_)
      have hLess : id.index < a.size := of_decide_eq_true (contains_of_parent? hParent)
      omega
  | succ n ih =>
      rw [ancestorsUpTo]
      split
      · next hRoot => exact .root hRoot
      · next parent hParent =>
        have hAbove := (h.some hParent).above
        exact .step hParent (ih (by omega))

/-- On the way up the nodes are younger and younger, and all of them exist. -/
theorem pairwise_of_ascends (h : a.HasYoungestParents) {id : NodeId} {above : List NodeId}
    (hAscends : a.Ascends id above) :
    (id :: above).Pairwise (fun x y => x.index < y.index) ∧ ∀ x ∈ above, a.contains x = true := by
  induction hAscends with
  | root => simp
  | @step id parent above hParent hRest ih =>
      obtain ⟨hPairwise, hThere⟩ := ih
      have hYoungest := h.some hParent
      have hFirst : ∀ x ∈ parent :: above, id.index < x.index := by
        refine List.forall_mem_cons.mpr ⟨hYoungest.above, fun x hMem => ?_⟩
        exact Nat.lt_trans hYoungest.above ((List.pairwise_cons.mp hPairwise).1 x hMem)
      exact ⟨List.pairwise_cons.mpr ⟨hFirst, hPairwise⟩, List.forall_mem_cons.mpr
        ⟨decide_eq_true (index_lt_of_lists hYoungest.lists), hThere⟩⟩

end HasYoungestParents

/-- Whatever is done to an arena, and whatever children its nodes list, it has the nodes that were
made, each of its kind and with the next number. The parent of a node is the greatest number of a
node that lists it among those greater than its own, and it has none if there is no such number. So
its ancestors are all that is met on the way from parent to parent, up to a node that has none, and
their numbers exist and grow. -/
theorem parent?_of_edits (edits : List Edit) (id : NodeId) :
    let a := empty.performAll edits
    a.HasKinds (edits.filterMap Edit.kind?) ∧
      (∀ parent, a.parent? id = some parent ↔ a.IsYoungestAbove id parent) ∧
      (a.parent? id = none ↔ ∀ other, a.Lists other id → other.index ≤ id.index) ∧
      a.Ascends id (a.ancestors id) ∧
      (id :: a.ancestors id).Pairwise (fun x y => x.index < y.index) ∧
      ∀ x ∈ a.ancestors id, a.contains x = true := by
  intro a
  have hKinds : a.HasKinds (edits.filterMap Edit.kind?) := HasKinds.empty.performAll edits
  have h : a.HasYoungestParents := hasYoungestParents_performAll edits
  have hAscends : a.Ascends id (a.ancestors id) :=
    h.ascends_ancestorsUpTo (Nat.le_add_left a.size id.index)
  have hNone (hBelow : ∀ other, a.Lists other id → other.index ≤ id.index) (parent : NodeId) :
      ¬a.IsYoungestAbove id parent := fun hYoungest =>
    Nat.not_lt_of_le (hBelow parent hYoungest.lists) hYoungest.above
  refine ⟨hKinds, fun parent => ⟨h.some, fun hYoungest => ?_⟩, ⟨h.none, fun hBelow => ?_⟩, hAscends,
    h.pairwise_of_ascends hAscends⟩
  · cases hParent : a.parent? id with
    | none => exact absurd hYoungest (hNone (h.none hParent) parent)
    | some other => rw [(h.some hParent).eq hYoungest]
  · exact Option.eq_none_iff_forall_ne_some.mpr fun parent hParent =>
      hNone hBelow parent (h.some hParent)

/-- Three nodes list each other in a circle, and the second lists itself. The first lists the third
too early to become its parent. -/
example :
    let a := empty.performAll
      [.alloc (.group ⟨2⟩) .synthetic, .alloc (.tuple [⟨0⟩, ⟨1⟩, ⟨0⟩]) .synthetic,
        .alloc (.group ⟨1⟩) .synthetic, .setRange ⟨7⟩ .synthetic]
    a.ancestors ⟨0⟩ = [⟨1⟩, ⟨2⟩] ∧ a.parent? ⟨2⟩ = none := by
  decide +kernel

end Precedence.Arena
