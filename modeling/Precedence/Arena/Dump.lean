import Precedence.Arena.Basic

/-!
Trees as S-expressions, and the order in which a tree is walked. A node may list children that do
not exist or that contain it, so both are bounded by a depth: there is no text, and no walk, where
a child is missing or the depth runs out. A tree without cycles is never deeper than its arena is
large.
-/
namespace Precedence.Arena

/-- A head and items in parentheses, with a space before each item. -/
def listForm (head : String) (items : List String) : String :=
  "(" ++ head ++ String.join (items.map (" " ++ ·)) ++ ")"

/-- The S-expression of a node, whose children may be nested up to a depth. -/
def dumpWithin (a : Arena) (symbols : SymbolTable) : Nat → NodeId → Option String
  | 0, _ => none
  | depth + 1, id => do
    let node ← a.node? id
    let inner (id : NodeId) : Option String := a.dumpWithin symbols depth id
    match node.kind with
    | .invalid _ => some "<invalid>"
    | .literal value => some value.text
    | .name id => some (a.nameText id)
    | .prefixed op operand => return listForm (symbols.name op) [← inner operand]
    | .postfixed op operand => return listForm (← inner operand) [symbols.name op]
    | .binary left op right =>
      return listForm (symbols.name op) [← inner left, ← inner right]
    | .ternary condition thenBranch elseBranch =>
      return listForm "?:" [← inner condition, ← inner thenBranch, ← inner elseBranch]
    | .group id => return listForm "group" [← inner id]
    | .tuple items => return listForm "tuple" (← items.mapM inner)
    | .call callee args => return listForm "call" ((← inner callee) :: (← args.mapM inner))
    | .lambda params body =>
      let params ← params.mapM inner
      return listForm "lambda" ["(" ++ " ".intercalate params ++ ")", ← inner body]
    | .block children _ _ => return listForm "block" (← children.mapM inner)
    | .statement id => return listForm "stmt" [← inner id]
    | .tagged tag children => return listForm (symbols.name tag) (← children.mapM inner)

/-- The S-expression of a node and everything below it. -/
def dump? (a : Arena) (symbols : SymbolTable) (id : NodeId) : Option String :=
  a.dumpWithin symbols a.size id

/-- A node and everything below it, parents before children and children in source order, nested up
to a depth. -/
def walkWithin (a : Arena) : Nat → NodeId → Option (List NodeId)
  | 0, _ => none
  | depth + 1, id => do
    let node ← a.node? id
    let below ← node.kind.children.mapM (a.walkWithin depth)
    return id :: below.flatten

/-- A node and everything below it, parents before children and children in source order. -/
def walk? (a : Arena) (id : NodeId) : Option (List NodeId) := a.walkWithin a.size id

end Precedence.Arena
