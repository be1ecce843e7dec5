import Precedence.Parse.Sequence

/-!
Expressions between delimiters: groups, tuples and calls. A group leaves no node of its own unless
it is asked to; then its expression has the range of the whole group. With a separator, no item,
several items, or one item with a separator behind it make a tuple.
-/
namespace Precedence.Engine

/-- The node of the rest of a group, whose only expression has been parsed. -/
def closeGroup (e : Engine) (closing : Symbol) (wrapped : Bool) (token : Token) (inner : NodeId)
    (s : Session) : NodeId × Session :=
  let (_, s) := s.expect e.symbols closing
  let range := s.rangeFrom token.range
  if wrapped then s.alloc (.group inner) range else (inner, s.setRange inner range)

/-- The node of a group that cannot be a tuple. -/
def enclosed (e : Engine) (closing : Symbol) (wrapped : Bool) (token : Token) : Parse NodeId :=
  fun s => do
    let (inner, s) ← e.expression .lowest s
    return e.closeGroup closing wrapped token inner s

/-- The node of a group or tuple with a separator. -/
def tupleOrGroup (e : Engine) (closing separator : Symbol) (wrapped : Bool) (token : Token) :
    Parse NodeId := fun s => do
  let (empty, s) := s.accept closing
  if empty then
    return s.alloc (.tuple []) (s.rangeFrom token.range)
  let (inner, s) ← e.expression .lowest s
  let (goesOn, s) := s.accept separator
  if goesOn then
    let (items, s) ← e.separated separator closing .lowest s
    return s.alloc (.tuple (inner :: items)) (s.rangeFrom token.range)
  else
    return e.closeGroup closing wrapped token inner s

/-- The node of a group whose opening has been consumed. -/
def group (e : Engine) (closing : Symbol) (separator : Option Symbol) (wrapped : Bool)
    (token : Token) : Parse NodeId :=
  match separator with
  | none => e.enclosed closing wrapped token
  | some separator => e.tupleOrGroup closing separator wrapped token

/-- The node of a call, whose callee and opening have been parsed. -/
def call (e : Engine) (closing separator : Symbol) (callee : NodeId) : Parse NodeId := fun s => do
  let (args, s) ← e.separated separator closing .lowest s
  return s.alloc (.call callee args) (s.rangeFrom (s.nodeRange callee))

end Precedence.Engine
