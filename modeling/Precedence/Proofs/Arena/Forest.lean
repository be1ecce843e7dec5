import Mathlib.Data.List.Nodup
import Precedence.Proofs.Arena.Walk

/-!
Arenas as forests. A node has one parent at most, so a new node can only take roots for its
children, or the items of a root that it leaves behind. Then all nodes but those left behind lie in
trees below the roots, and the parent that is recorded for a node is the only one that lists it.
-/
namespace Precedence.Arena

variable {a : Arena} {id : NodeId}

/-! ### Parents -/

/-- A change to one node that keeps its parent keeps every parent. -/
theorem parent?_update (a : Arena) (id other : NodeId) {f : Node → Node}
    (hKeeps : ∀ node, (f node).parent = node.parent) :
    (a.update id f).parent? other = a.parent? other := by
  have hMap (node : Option Node) :
      node.bind (·.parent) = (node.map (·.parent)).bind fun parent => parent := by
    cases node with
    | none => rfl
    | some _ => rfl
  rw [parent?, parent?, hMap, hMap, a.map_node?_update id other hKeeps]

theorem contains_update (a : Arena) (id other : NodeId) (f : Node → Node) :
    (a.update id f).contains other = a.contains other := by
  rw [contains, contains, size_update]

theorem parent?_update_parent (a : Arena) (parent child id : NodeId) :
    (a.update child fun node => { node with parent := some parent }).parent? id =
      if id = child ∧ a.contains id then some parent else a.parent? id := by
  simp only [parent?, node?, update, contains, size, Array.getElem?_modify]
  by_cases hSame : id = child
  · subst hSame
    by_cases hLess : id.index < a.nodes.size
    · simp [hLess]
    · simp [hLess]
  · have hIndex : child.index ≠ id.index := by
      intro hEqual
      exact hSame (by cases id; cases child; simp_all)
    simp [hSame, hIndex]

/-- Those of the children that exist get the parent. -/
theorem parent?_adopt (a : Arena) (parent id : NodeId) (children : List NodeId) :
    (a.adopt parent children).parent? id =
      if id ∈ children ∧ a.contains id then some parent else a.parent? id := by
  induction children generalizing a with
  | nil => simp [adopt]
  | cons child children ih =>
      refine (ih _).trans ?_
      rw [contains_update, parent?_update_parent]
      by_cases hThere : a.contains id = true
      · by_cases hLater : id ∈ children
        · simp [hThere, hLater]
        · simp [hThere, hLater]
      · simp [hThere]

/-- A new node has no parent, and is that of the children that exist. -/
theorem parent?_alloc (a : Arena) (kind : NodeKind) (range : SourceRange) (id : NodeId) :
    (a.alloc kind range).2.parent? id =
      if id ∈ kind.children ∧ a.contains id then some ⟨a.size⟩ else a.parent? id := by
  rw [← parent?_adopt]
  change ((a.adopt ⟨a.size⟩ kind.children).nodes.push ⟨kind, range, none, []⟩)[id.index]?.bind
    (·.parent) = _
  rw [Array.getElem?_push]
  split
  · next hNew =>
      have hNone : (a.adopt ⟨a.size⟩ kind.children).node? id = none :=
        Array.getElem?_eq_none (Nat.le_of_eq hNew.symm)
      rw [parent?, hNone]
      rfl
  · rfl

@[simp] theorem parent?_setRange (a : Arena) (id other : NodeId) (range : SourceRange) :
    (a.setRange id range).parent? other = a.parent? other :=
  a.parent?_update id other fun _ => rfl

@[simp] theorem kind?_attach (a : Arena) (id other : NodeId) (message : MessageId) :
    (a.attach id message).kind? other = a.kind? other :=
  a.kind?_update id other fun _ => rfl

@[simp] theorem parent?_attach (a : Arena) (id other : NodeId) (message : MessageId) :
    (a.attach id message).parent? other = a.parent? other :=
  a.parent?_update id other fun _ => rfl

theorem contains_of_parent? {parent : NodeId} (h : a.parent? id = some parent) :
    a.contains id = true := by
  obtain ⟨node, hNode, -⟩ := Option.bind_eq_some_iff.mp h
  exact contains_of_kind? (Option.map_eq_some_iff.mpr ⟨node, hNode, rfl⟩)

theorem parent?_alloc_new (a : Arena) (kind : NodeKind) (range : SourceRange) :
    (a.alloc kind range).2.parent? ⟨a.size⟩ = none := by
  have hMissing : ¬ a.contains ⟨a.size⟩ = true := fun h => Nat.lt_irrefl _ (of_decide_eq_true h)
  rw [parent?_alloc, if_neg fun hBoth => hMissing hBoth.2]
  exact Option.eq_none_iff_forall_ne_some.mpr fun parent hSome =>
    hMissing (contains_of_parent? hSome)

/-! ### New nodes -/

/-- Each node after a new one has been made is the new node or was there before. -/
theorem kind?_alloc_cases {kind k : NodeKind} {range : SourceRange}
    (h : (a.alloc kind range).2.kind? id = some k) :
    (id = ⟨a.size⟩ ∧ k = kind) ∨ a.kind? id = some k := by
  rw [kind?_alloc] at h
  split at h
  · next hIndex =>
      refine .inl ⟨?_, (Option.some.inj h).symm⟩
      cases id
      exact congrArg _ hIndex
  · exact .inr h

/-- A child after a new node has been made is a child of that node or was one before. -/
theorem lists_alloc_cases {kind : NodeKind} {range : SourceRange} {parent : NodeId}
    (h : (a.alloc kind range).2.Lists parent id) :
    (parent = ⟨a.size⟩ ∧ id ∈ kind.children) ∨ a.Lists parent id := by
  obtain ⟨k, hKind, hMem⟩ := h
  rcases kind?_alloc_cases hKind with ⟨rfl, rfl⟩ | hBefore
  · exact .inl ⟨rfl, hMem⟩
  · exact .inr ⟨k, hBefore, hMem⟩

theorem ne_of_contains (h : a.contains id = true) : id ≠ ⟨a.size⟩ := by
  rintro rfl
  exact Nat.lt_irrefl _ (of_decide_eq_true h)

theorem contains_alloc (h : a.contains id = true) (kind : NodeKind) (range : SourceRange) :
    (a.alloc kind range).2.contains id = true := by
  obtain ⟨k, hKind⟩ := exists_kind_iff.mpr h
  exact contains_of_kind? ((a.extends_alloc kind range).kind hKind)

/-- A new node is younger than its children if they exist. -/
theorem IsDescending.alloc (h : a.IsDescending) {kind : NodeKind} (range : SourceRange)
    (hChildren : ∀ child ∈ kind.children, a.contains child = true) :
    (a.alloc kind range).2.IsDescending := by
  intro parent child hLists
  rcases lists_alloc_cases hLists with ⟨rfl, hMem⟩ | hBefore
  · exact of_decide_eq_true (hChildren child hMem)
  · exact h parent child hBefore

/-! ### Forests -/

/-- The nodes lie in trees below some roots, but for those that have been left behind when their
children were taken over. -/
structure IsForest (a : Arena) (roots left : List NodeId) : Prop where
  descending : a.IsDescending
  distinct : roots.Nodup
  released : ∀ id ∈ left, a.contains id = true
  root : ∀ id ∈ roots, a.contains id = true ∧ id ∉ left ∧
    ∀ parent, a.parent? id = some parent → parent ∈ left
  children {id : NodeId} {kind : NodeKind} : a.kind? id = some kind → id ∉ left →
    kind.children.Nodup ∧ ∀ child ∈ kind.children, a.parent? child = some id ∧ child ∉ left
  parent {id : NodeId} : a.contains id = true → id ∉ left → id ∉ roots →
    ∃ parent, a.Lists parent id ∧ parent ∉ left

namespace IsForest

variable {b : Arena} {roots others left : List NodeId} {kind : NodeKind} {x y : NodeId}

theorem empty : Arena.empty.IsForest [] [] where
  descending := by
    rintro parent child ⟨kind, hKind, -⟩
    cases hKind
  distinct := List.nodup_nil
  released := by simp
  root := by simp
  children := by
    intro id kind hKind
    cases hKind
  parent := by
    intro id hThere
    cases hThere

/-- A forest is a matter of kinds and parents. -/
theorem of_same (h : a.IsForest roots left) (hKind : ∀ id, b.kind? id = a.kind? id)
    (hParent : ∀ id, b.parent? id = a.parent? id) : b.IsForest roots left := by
  have hLists (parent child : NodeId) : b.Lists parent child ↔ a.Lists parent child := by
    simp only [Lists, hKind]
  have hContains (id : NodeId) : b.contains id = true ↔ a.contains id = true := by
    simp only [← exists_kind_iff, hKind]
  refine ⟨fun parent child hBelow => ?_, h.distinct, fun id hMem => ?_, fun id hMem => ?_,
    fun hNode hKept => ?_, fun hThere hKept hAway => ?_⟩
  · exact h.descending parent child ((hLists parent child).mp hBelow)
  · exact (hContains id).mpr (h.released id hMem)
  · rw [hContains, hParent]
    exact h.root id hMem
  · rw [hKind] at hNode
    simp only [hParent]
    exact h.children hNode hKept
  · simp only [hLists]
    exact h.parent ((hContains _).mp hThere) hKept hAway

/-- The order of the roots does not matter. -/
theorem perm (h : a.IsForest roots left) (hPerm : roots.Perm others) : a.IsForest others left :=
  ⟨h.descending, hPerm.nodup h.distinct, h.released,
    fun id hMem => h.root id (hPerm.mem_iff.mpr hMem), h.children, fun hThere hKept hAway =>
      h.parent hThere hKept fun hMem => hAway (hPerm.mem_iff.mp hMem)⟩

/-- The parent that is recorded for a child is the node that lists it, unless that was left
behind. -/
theorem parent?_eq (h : a.IsForest roots left) (hLists : a.Lists x id) (hKept : x ∉ left) :
    a.parent? id = some x ∧ id ∉ left := by
  obtain ⟨kind, hKind, hMem⟩ := hLists
  exact (h.children hKind hKept).2 id hMem

/-- A node lists no root unless it was left behind. -/
theorem not_mem_of_lists (h : a.IsForest roots left) (hLists : a.Lists x id) (hKept : x ∉ left) :
    id ∉ roots :=
  fun hRoot => hKept ((h.root id hRoot).2.2 x (h.parent?_eq hLists hKept).1)

/-- When a root is left behind, its children are roots in its place. -/
theorem release (h : a.IsForest (roots ++ [id]) left) (hKind : a.kind? id = some kind) :
    a.IsForest (roots ++ kind.children) (id :: left) := by
  obtain ⟨hThere, hKept, -⟩ := h.root id (List.mem_append_right _ (List.mem_singleton_self id))
  obtain ⟨hNodup, hOwned⟩ := h.children hKind hKept
  obtain ⟨hDistinct, -, hApart⟩ := List.nodup_append.mp h.distinct
  have hLists {child : NodeId} (hMem : child ∈ kind.children) : a.Lists id child :=
    ⟨kind, hKind, hMem⟩
  refine ⟨h.descending, ?distinct, ?released, ?root, ?children, ?parent⟩
  case distinct =>
    refine List.nodup_append.mpr ⟨hDistinct, hNodup, ?_⟩
    rintro child hRoot _ hMem rfl
    exact h.not_mem_of_lists (hLists hMem) hKept (List.mem_append_left _ hRoot)
  case released =>
    rw [List.forall_mem_cons]
    exact ⟨hThere, h.released⟩
  case root =>
    intro other hMem
    rw [List.mem_cons, not_or]
    rcases List.mem_append.mp hMem with hRoot | hChild
    · obtain ⟨hOther, hOtherKept, hParent⟩ := h.root other (List.mem_append_left _ hRoot)
      refine ⟨hOther, ⟨hApart other hRoot id (List.mem_singleton_self id), hOtherKept⟩, ?_⟩
      exact fun parent hSome => List.mem_cons_of_mem _ (hParent parent hSome)
    · obtain ⟨hParent, hChildKept⟩ := hOwned other hChild
      refine ⟨contains_of_parent? hParent, ⟨?_, hChildKept⟩, fun parent hSome => ?_⟩
      · rintro rfl
        exact Nat.lt_irrefl _ (h.descending _ _ (hLists hChild))
      · rw [← Option.some.inj (hParent.symm.trans hSome)]
        exact List.mem_cons_self
  case children =>
    intro other k hOther hStays
    obtain ⟨hOtherNodup, hOtherOwned⟩ :=
      h.children hOther fun hMem => hStays (List.mem_cons_of_mem _ hMem)
    refine ⟨hOtherNodup, fun child hMem => ⟨(hOtherOwned child hMem).1, ?_⟩⟩
    rintro (_ | ⟨_, hChildLeft⟩)
    · refine h.not_mem_of_lists ⟨k, hOther, hMem⟩ (fun hMem => ?_)
        (List.mem_append_right _ (List.mem_singleton_self id))
      exact hStays (List.mem_cons_of_mem _ hMem)
    · exact (hOtherOwned child hMem).2 hChildLeft
  case parent =>
    intro other hOther hStays hAway
    rw [List.mem_cons, not_or] at hStays
    rw [List.mem_append, not_or] at hAway
    obtain ⟨parent, ⟨k, hParentKind, hMem⟩, hParentKept⟩ := h.parent hOther hStays.2 (by
      rw [List.mem_append, List.mem_singleton, not_or]
      exact ⟨hAway.1, hStays.1⟩)
    refine ⟨parent, ⟨k, hParentKind, hMem⟩, ?_⟩
    rintro (_ | ⟨_, hParentLeft⟩)
    · cases hKind.symm.trans hParentKind
      exact hAway.2 hMem
    · exact hParentKept hParentLeft

/-- A new node takes roots for its children, and is a root in their place. -/
theorem alloc (h : a.IsForest (roots ++ kind.children) left) (range : SourceRange) :
    (a.alloc kind range).2.IsForest (roots ++ [⟨a.size⟩]) left := by
  have hSelf : (a.alloc kind range).2.kind? ⟨a.size⟩ = some kind := a.kind?_alloc_self kind range
  obtain ⟨hDistinct, hNodup, hApart⟩ := List.nodup_append.mp h.distinct
  have hNewKept : (⟨a.size⟩ : NodeId) ∉ left := fun hMem => ne_of_contains (h.released _ hMem) rfl
  refine ⟨?descending, ?distinct, ?released, ?root, ?children, ?parent⟩
  case descending =>
    exact h.descending.alloc range fun child hMem => (h.root child (List.mem_append_right _ hMem)).1
  case distinct =>
    refine List.nodup_append.mpr ⟨hDistinct, List.pairwise_singleton _ _, ?_⟩
    rintro id hMem _ hNew rfl
    exact ne_of_contains (h.root id (List.mem_append_left _ hMem)).1 (List.mem_singleton.mp hNew)
  case released => exact fun id hMem => contains_alloc (h.released id hMem) kind range
  case root =>
    intro id hMem
    rcases List.mem_append.mp hMem with hRoot | hNew
    · obtain ⟨hThere, hKept, hParent⟩ := h.root id (List.mem_append_left _ hRoot)
      refine ⟨contains_alloc hThere kind range, hKept, ?_⟩
      rwa [parent?_alloc, if_neg fun hBoth => hApart id hRoot id hBoth.1 rfl]
    · obtain rfl := List.mem_singleton.mp hNew
      refine ⟨contains_of_kind? hSelf, hNewKept, fun parent hSome => ?_⟩
      rw [parent?_alloc_new] at hSome
      cases hSome
  case children =>
    intro id k hKind hKept
    rcases kind?_alloc_cases hKind with ⟨rfl, rfl⟩ | hBefore
    · refine ⟨hNodup, fun child hMem => ?_⟩
      obtain ⟨hThere, hChildKept, -⟩ := h.root child (List.mem_append_right _ hMem)
      exact ⟨by rw [parent?_alloc, if_pos ⟨hMem, hThere⟩], hChildKept⟩
    · obtain ⟨hOldNodup, hOwned⟩ := h.children hBefore hKept
      refine ⟨hOldNodup, fun child hMem => ⟨?_, (hOwned child hMem).2⟩⟩
      rw [parent?_alloc, if_neg, (hOwned child hMem).1]
      exact fun hBoth => h.not_mem_of_lists ⟨k, hBefore, hMem⟩ hKept
        (List.mem_append_right _ hBoth.1)
  case parent =>
    intro id hThere hKept hAway
    obtain ⟨hNotRoot, hNotNew⟩ : id ∉ roots ∧ id ≠ ⟨a.size⟩ := by
      simpa only [List.mem_append, List.mem_singleton, not_or] using hAway
    obtain ⟨k, hKind⟩ := exists_kind_iff.mpr hThere
    have hBefore := (kind?_alloc_cases hKind).resolve_left fun hSame => hNotNew hSame.1
    by_cases hChild : id ∈ kind.children
    · exact ⟨⟨a.size⟩, ⟨kind, hSelf, hChild⟩, hNewKept⟩
    · obtain ⟨parent, hLists, hParentKept⟩ := h.parent (contains_of_kind? hBefore) hKept
        fun hMem => (List.mem_append.mp hMem).elim hNotRoot hChild
      exact ⟨parent, (a.extends_alloc kind range).lists hLists, hParentKept⟩

/-! ### Trees -/

/-- Nothing below a node that is kept was left behind. -/
theorem kept_of_holds (h : a.IsForest roots left) (hKept : id ∉ left) (hHolds : a.Holds id x) :
    x ∉ left := by
  induction hHolds with
  | refl => exact hKept
  | tail _ hLists ih => exact (h.parent?_eq hLists ih).2

/-- The parent that is recorded for a node below another one lists it, and nothing else that is
kept does. -/
theorem exists_parent (h : a.IsForest roots left) (hKept : id ∉ left) (hHolds : a.Holds id x)
    (hBelow : x ≠ id) :
    ∃ parent kind, a.Holds id parent ∧ a.kind? parent = some kind ∧ kind.children.count x = 1 ∧
      a.parent? x = some parent ∧
        ∀ other, a.Holds id other → a.Lists other x → other = parent := by
  rcases Relation.ReflTransGen.cases_tail hHolds with hSame | ⟨parent, hAbove, hLists⟩
  · exact absurd hSame hBelow
  · have hParent := (h.parent?_eq hLists (h.kept_of_holds hKept hAbove)).1
    obtain ⟨kind, hKind, hMem⟩ := hLists
    have hNodup := (h.children hKind (h.kept_of_holds hKept hAbove)).1
    refine ⟨parent, kind, hAbove, hKind, List.count_eq_one_of_mem hNodup hMem, hParent, ?_⟩
    intro other hOther hLists
    have hOtherParent := (h.parent?_eq hLists (h.kept_of_holds hKept hOther)).1
    exact Option.some.inj (hOtherParent.symm.trans hParent)

/-- Whatever was not left behind is below the only root. -/
theorem holds_of_kept {root : NodeId} (h : a.IsForest [root] left) (hThere : a.contains id = true)
    (hKept : id ∉ left) : a.Holds root id := by
  -- parents are younger, so this is an induction on how many nodes are younger than this one
  induction hYounger : a.size - id.index using Nat.strongRecOn generalizing id with
  | _ n ih =>
    by_cases hRoot : id = root
    · exact hRoot ▸ .refl
    · obtain ⟨parent, hLists, hParentKept⟩ :=
        h.parent hThere hKept (by simpa only [List.mem_singleton] using hRoot)
      have hLess := h.descending parent id hLists
      obtain ⟨kind, hKind, hMem⟩ := hLists
      have hBound := index_lt_of_kind? hKind
      exact (ih (a.size - parent.index) (by omega) (contains_of_kind? hKind) hParentKept rfl).tail
        ⟨kind, hKind, hMem⟩

/-- What lies below two children of a node shows that they are the same child. -/
theorem eq_of_holds (h : a.IsForest roots left) (hKept : id ∉ left) (hX : a.Lists id x)
    (hY : a.Lists id y) {z : NodeId} (hBelowX : a.Holds x z) (hBelowY : a.Holds y z) : x = y := by
  have hYounger {c d z : NodeId} (hC : a.Lists id c) (hD : a.Lists id d) (hAbove : a.Holds c z)
      (hLists : a.Lists z d) : False := by
    -- the parent of a child is the node itself, which is younger than anything below a child
    have hParent := (h.parent?_eq hLists
      (h.kept_of_holds hKept (Relation.ReflTransGen.head hC hAbove))).1
    obtain rfl := Option.some.inj ((h.parent?_eq hD hKept).1.symm.trans hParent)
    exact Nat.not_lt.mpr (h.descending.index_le hAbove) (h.descending _ _ hC)
  induction hBelowX with
  | refl =>
      rcases Relation.ReflTransGen.cases_tail hBelowY with hSame | ⟨z, hAbove, hLists⟩
      · exact hSame
      · exact (hYounger hY hX hAbove hLists).elim
  | @tail v w hAbove hLists ih =>
      rcases Relation.ReflTransGen.cases_tail hBelowY with rfl | ⟨u, hOther, hOtherLists⟩
      · exact (hYounger hX hY hAbove hLists).elim
      · have hKeptBelow {c u : NodeId} (hC : a.Lists id c) (hHolds : a.Holds c u) : u ∉ left :=
          h.kept_of_holds hKept (Relation.ReflTransGen.head hC hHolds)
        have hParent := (h.parent?_eq hLists (hKeptBelow hX hAbove)).1
        have hOtherParent := (h.parent?_eq hOtherLists (hKeptBelow hY hOther)).1
        obtain rfl := Option.some.inj (hParent.symm.trans hOtherParent)
        exact ih hOther

/-- A walk meets no node twice. -/
theorem nodup_walkWithin (h : a.IsForest roots left) {depth : Nat} {order : List NodeId}
    (hKept : id ∉ left) (hWalk : a.walkWithin depth id = some order) : order.Nodup := by
  induction depth generalizing id order with
  | zero => cases hWalk
  | succ depth ih =>
      obtain ⟨kind, below, hKind, hBelow, rfl⟩ := walkWithin_succ.mp hWalk
      obtain ⟨hNodup, hOwned⟩ := h.children hKind hKept
      have hMem := hBelow.imp fun _ _ hChild => mem_walkWithin hChild
      have hLists {child : NodeId} (hChild : child ∈ kind.children) : a.Lists id child :=
        ⟨kind, hKind, hChild⟩
      refine List.nodup_cons.mpr ⟨fun hAgain => ?_, pairwise_flatten hMem ?_ ?_⟩
      · obtain ⟨child, hChild, hHolds⟩ := (mem_flatten_iff hMem id).mp hAgain
        exact Nat.not_lt.mpr (h.descending.index_le hHolds) (h.descending _ _ (hLists hChild))
      · have hKeptChildren := (List.forall₂_and_left _ _).mpr
          ⟨fun child hChild => (hOwned child hChild).2, hBelow⟩
        exact hKeptChildren.imp fun _ _ hChild => ih hChild.1 hChild.2
      · refine hNodup.imp_of_mem fun {x y} hX hY hApart z z' hZ hZ' hSame => hApart ?_
        exact h.eq_of_holds hKept (hLists hX) (hLists hY) hZ (hSame ▸ hZ')

end IsForest

end Precedence.Arena
