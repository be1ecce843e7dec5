import Precedence.Proofs.Arena.Growth

/-!
The messages attached to nodes. Attaching a message is all that changes them: a new node has none,
and a node keeps its own when its range or its parent changes.
-/
namespace Precedence.Arena

variable (a : Arena) (id other : NodeId)

/-- The numbers of the messages attached to a node, in the order in which they were attached. A
node that does not exist has none. -/
def attached (id : NodeId) : List MessageId := ((a.node? id).map (·.messages)).getD []

theorem attached_update {f : Node → Node} (hKeeps : ∀ node, (f node).messages = node.messages) :
    (a.update id f).attached other = a.attached other := by
  rw [attached, a.map_node?_update id other hKeeps]
  rfl

theorem attached_eq_nil (h : a.contains id = false) : a.attached id = [] := by
  have hLarge : a.nodes.size ≤ id.index := Nat.le_of_not_lt (of_decide_eq_false h)
  simp [attached, node?, Array.getElem?_eq_none hLarge]

/-- The node that is made next has no messages yet. -/
theorem attached_size : a.attached ⟨a.size⟩ = [] :=
  a.attached_eq_nil _ (decide_eq_false (Nat.lt_irrefl _))

theorem contains_of_mem_attached {m : MessageId} (h : m ∈ a.attached id) :
    a.contains id = true := by
  cases hContains : a.contains id with
  | true => rfl
  | false =>
      rw [a.attached_eq_nil id hContains] at h
      cases h

@[simp] theorem attached_alloc (kind : NodeKind) (range : SourceRange) :
    (a.alloc kind range).2.attached other = a.attached other := by
  rw [attached, a.map_node?_alloc kind range other fun _ _ => rfl]
  split
  · next hNew =>
    have hMissing : a.contains other = false := decide_eq_false (by omega)
    rw [a.attached_eq_nil other hMissing]
    rfl
  · rfl

@[simp] theorem attached_setRange (range : SourceRange) :
    (a.setRange id range).attached other = a.attached other :=
  a.attached_update id other fun _ => rfl

@[simp] theorem attached_internName (text : String) :
    (a.internName text).2.attached other = a.attached other :=
  rfl

/-- Attaching a message to a node puts it behind those that the node has, if there is the node. -/
theorem attached_attach (m : MessageId) :
    (a.attach id m).attached other =
      if other = id ∧ a.contains id = true then a.attached other ++ [m] else a.attached other := by
  obtain ⟨i⟩ := id
  obtain ⟨j⟩ := other
  simp only [attached, node?, attach, update, Array.getElem?_modify, contains, size,
    NodeId.mk.injEq]
  by_cases hSame : j = i
  · subst hSame
    by_cases hLess : j < a.nodes.size
    · simp [hLess]
    · simp [hLess]
  · simp [hSame, Ne.symm hSame]

/-- A message that is attached to a node then was so before, or it is the one. -/
theorem mem_attached_attach {m m' : MessageId} (h : m' ∈ (a.attach id m).attached other) :
    m' ∈ a.attached other ∨ (other = id ∧ m' = m) := by
  rw [attached_attach] at h
  split at h
  · next hHere =>
    rcases List.mem_append.mp h with hBefore | hLast
    · exact .inl hBefore
    · exact .inr ⟨hHere.1, List.mem_singleton.mp hLast⟩
  · exact .inl h

end Precedence.Arena
