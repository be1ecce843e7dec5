import Precedence.Arena.Basic

/-!
How an arena grows. Its nodes keep their numbers and their kinds for good; only the parent, the
range and the messages of a node change later. So whatever is read off the kinds of an arena can
still be read off every arena that goes on from it.
-/
namespace Precedence.Arena

/-- One arena goes on from another: what was in it is there under its number. -/
structure Extends (a b : Arena) : Prop where
  kind {id : NodeId} {kind : NodeKind} : a.kind? id = some kind → b.kind? id = some kind
  names : a.names.entries <+: b.names.entries

theorem Extends.refl (a : Arena) : a.Extends a := ⟨id, List.prefix_rfl⟩

theorem Extends.trans {a b c : Arena} (h : a.Extends b) (h' : b.Extends c) : a.Extends c :=
  ⟨fun hKind => h'.kind (h.kind hKind), h.names.trans h'.names⟩

/-- An identifier keeps its number. -/
theorem Extends.text? {a b : Arena} (h : a.Extends b) {n : Nat} {text : String}
    (hText : a.names.text? n = some text) : b.names.text? n = some text :=
  Interning.text?_mono h.names hText

/-- A change to one node that keeps something about it keeps that of every node. -/
theorem map_node?_update {β : Type} {about : Node → β} (a : Arena) (id other : NodeId)
    {f : Node → Node} (hKeeps : ∀ node, about (f node) = about node) :
    ((a.update id f).node? other).map about = (a.node? other).map about := by
  simp only [node?, update, Array.getElem?_modify]
  split
  · simp [Function.comp_def, hKeeps]
  · rfl

theorem kind?_update (a : Arena) (id other : NodeId) {f : Node → Node}
    (hKeeps : ∀ node, (f node).kind = node.kind) :
    (a.update id f).kind? other = a.kind? other :=
  a.map_node?_update id other hKeeps

@[simp] theorem size_update (a : Arena) (id : NodeId) (f : Node → Node) :
    (a.update id f).size = a.size := by
  simp [size, update]

theorem extends_update (a : Arena) (id : NodeId) {f : Node → Node}
    (hKeeps : ∀ node, (f node).kind = node.kind) : a.Extends (a.update id f) :=
  ⟨fun hKind => (a.kind?_update id _ hKeeps).trans hKind, List.prefix_rfl⟩

/-- The arena in which a node is the parent of those of the children that exist. -/
def adopt (a : Arena) (parent : NodeId) (children : List NodeId) : Arena :=
  children.foldl (fun a child =>
    a.update child fun node => { node with parent := some parent }) a

theorem extends_adopt (a : Arena) (parent : NodeId) (children : List NodeId) :
    a.Extends (a.adopt parent children) := by
  induction children generalizing a with
  | nil => exact .refl a
  | cons child children ih =>
      refine Extends.trans ?_ (ih _)
      exact a.extends_update child fun _ => rfl

/-- A node with a new parent keeps everything else. -/
theorem map_node?_adopt {β : Type} {about : Node → β} (a : Arena) (parent id : NodeId)
    (children : List NodeId) (hKeeps : ∀ node parent, about { node with parent } = about node) :
    ((a.adopt parent children).node? id).map about = (a.node? id).map about := by
  induction children generalizing a with
  | nil => rfl
  | cons child children ih =>
      refine (ih _).trans ?_
      exact a.map_node?_update child id fun node => hKeeps node _

@[simp] theorem size_adopt (a : Arena) (parent : NodeId) (children : List NodeId) :
    (a.adopt parent children).size = a.size := by
  induction children generalizing a with
  | nil => rfl
  | cons child children ih => exact (ih _).trans (a.size_update child _)

@[simp] theorem alloc_fst (a : Arena) (kind : NodeKind) (range : SourceRange) :
    (a.alloc kind range).1 = ⟨a.size⟩ := rfl

/-- A new node has the first free number and is as it was made. The others keep everything but their
parents. -/
theorem map_node?_alloc {β : Type} {about : Node → β} (a : Arena) (kind : NodeKind)
    (range : SourceRange) (id : NodeId)
    (hKeeps : ∀ node parent, about { node with parent } = about node) :
    ((a.alloc kind range).2.node? id).map about =
      if id.index = a.size then some (about ⟨kind, range, none, []⟩)
      else (a.node? id).map about := by
  change (((a.adopt ⟨a.size⟩ kind.children).nodes.push ⟨kind, range, none, []⟩)[id.index]?).map
    about = _
  have hSize : (a.adopt ⟨a.size⟩ kind.children).nodes.size = a.size := a.size_adopt _ _
  rw [Array.getElem?_push, hSize]
  split
  · rfl
  · exact a.map_node?_adopt _ id _ hKeeps

theorem kind?_alloc (a : Arena) (kind : NodeKind) (range : SourceRange) (id : NodeId) :
    (a.alloc kind range).2.kind? id = if id.index = a.size then some kind else a.kind? id :=
  a.map_node?_alloc kind range id fun _ _ => rfl

theorem kind?_eq_none (a : Arena) {id : NodeId} (h : a.size ≤ id.index) : a.kind? id = none := by
  simp only [kind?, node?, Option.map_eq_none_iff]
  exact Array.getElem?_eq_none h

theorem index_lt_of_kind? {a : Arena} {id : NodeId} {kind : NodeKind}
    (h : a.kind? id = some kind) : id.index < a.size := by
  apply Nat.lt_of_not_le
  intro hLarge
  rw [a.kind?_eq_none hLarge] at h
  cases h

theorem extends_alloc (a : Arena) (kind : NodeKind) (range : SourceRange) :
    a.Extends (a.alloc kind range).2 := by
  refine ⟨fun {id k} hKind => ?_, (a.extends_adopt ⟨a.size⟩ kind.children).names⟩
  have hOld := index_lt_of_kind? hKind
  rw [kind?_alloc, if_neg (by omega), hKind]

@[simp] theorem kind?_alloc_self (a : Arena) (kind : NodeKind) (range : SourceRange) :
    (a.alloc kind range).2.kind? (a.alloc kind range).1 = some kind := by
  rw [kind?_alloc, alloc_fst, if_pos rfl]

theorem kind?_setRange (a : Arena) (id other : NodeId) (range : SourceRange) :
    (a.setRange id range).kind? other = a.kind? other :=
  a.kind?_update id other fun _ => rfl

theorem extends_setRange (a : Arena) (id : NodeId) (range : SourceRange) :
    a.Extends (a.setRange id range) :=
  a.extends_update id fun _ => rfl

theorem extends_attach (a : Arena) (id : NodeId) (message : MessageId) :
    a.Extends (a.attach id message) :=
  a.extends_update id fun _ => rfl

theorem extends_internName (a : Arena) (text : String) : a.Extends (a.internName text).2 :=
  ⟨id, a.names.entries_prefix_intern text⟩

end Precedence.Arena
