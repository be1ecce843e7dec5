import Precedence.Arena.Kind
import Precedence.Source.Range

/-!
The arena that trees live in. Nodes are added at the end and never removed; adding one makes it the
parent of those children that exist already. So a parent always has a larger number than its child,
whatever numbers a node may list, and the latest node to list a child is the one that keeps it.
-/
namespace Precedence

/-- A node with everything that is recorded about it. -/
structure Node where
  kind : NodeKind
  range : SourceRange
  parent : Option NodeId
  messages : List MessageId
deriving DecidableEq, Inhabited

/-- Nodes by number, and the identifiers that they mention. -/
structure Arena where
  nodes : Array Node
  names : Interning

namespace Arena

/-- The arena without nodes. -/
def empty : Arena := ⟨#[], .empty⟩

instance : Inhabited Arena := ⟨empty⟩

/-- The number of nodes. -/
def size (a : Arena) : Nat := a.nodes.size

/-- The node of a number. -/
def node? (a : Arena) (id : NodeId) : Option Node := a.nodes[id.index]?

/-- The shape of a node. -/
def kind? (a : Arena) (id : NodeId) : Option NodeKind := (a.node? id).map (·.kind)

/-- Whether a number has a node. -/
def contains (a : Arena) (id : NodeId) : Bool := id.index < a.size

/-- The numbers in use, in order. -/
def ids (a : Arena) : List NodeId := (List.range a.size).map .mk

/-- The arena with a change to one node, and without any change if the node does not exist. -/
def update (a : Arena) (id : NodeId) (f : Node → Node) : Arena :=
  { a with nodes := a.nodes.modify id.index f }

/-- A new node at the end, which becomes the parent of the children that exist. -/
def alloc (a : Arena) (kind : NodeKind) (range : SourceRange) : NodeId × Arena :=
  let id : NodeId := ⟨a.size⟩
  let adopt (a : Arena) (child : NodeId) : Arena :=
    a.update child fun node => { node with parent := some id }
  let a := kind.children.foldl adopt a
  (id, { a with nodes := a.nodes.push ⟨kind, range, none, []⟩ })

/-- The range of a node. A number without a node has the range of nothing. -/
def range (a : Arena) (id : NodeId) : SourceRange :=
  ((a.node? id).map (·.range)).getD .synthetic

/-- The arena with another range for a node. -/
def setRange (a : Arena) (id : NodeId) (range : SourceRange) : Arena :=
  a.update id fun node => { node with range }

/-- The arena with a message attached to a node, behind those attached before. -/
def attach (a : Arena) (id : NodeId) (message : MessageId) : Arena :=
  a.update id fun node => { node with messages := node.messages ++ [message] }

/-- The parent of a node. -/
def parent? (a : Arena) (id : NodeId) : Option NodeId := (a.node? id).bind (·.parent)

/-- The first `n` ancestors of a node, the parent first. -/
def ancestorsUpTo (a : Arena) : Nat → NodeId → List NodeId
  | 0, _ => []
  | n + 1, id =>
    match a.parent? id with
    | none => []
    | some parent => parent :: a.ancestorsUpTo n parent

/-- The ancestors of a node, from its parent up to the root. -/
def ancestors (a : Arena) (id : NodeId) : List NodeId := a.ancestorsUpTo a.size id

/-- The number of an identifier, a new one if need be. -/
def internName (a : Arena) (text : String) : NameId × Arena :=
  let (number, names) := a.names.intern text
  (⟨number⟩, { a with names })

/-- The spelling of an identifier of this arena. -/
def nameText (a : Arena) (id : NameId) : String := (a.names.text? id.index).getD ""

/-- Whether a number has a node that is an identifier. -/
def isName (a : Arena) (id : NodeId) : Bool := (a.kind? id).any (·.isName)

end Arena

end Precedence
