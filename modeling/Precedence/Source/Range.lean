import Precedence.Source.Position
import Precedence.Source.Span

/-!
Source ranges: a span together with the positions of both of its ends. The positions are carried
along and not computed from the span, so a range can be shown to a reader without the text, and
nothing here says that they agree with it.
-/
namespace Precedence

/-- A span and the positions of its ends. -/
structure SourceRange where
  span : Span
  start : Position
  stop : Position
deriving DecidableEq, Inhabited

namespace SourceRange

/-- The range of what has no place in a text. -/
def synthetic : SourceRange := ⟨⟨0, 0⟩, .origin, .origin⟩

/-- The empty range at a place. -/
def point (offset : Nat) (at_ : Position) : SourceRange := ⟨.point offset, at_, at_⟩

/-- The smallest range that covers two ranges. Each end keeps the position of the range it comes
from, and the first range keeps its ends where the two agree. -/
def merge (r t : SourceRange) : SourceRange :=
  let (first, start) := if t.span.start < r.span.start then (t.span.start, t.start)
    else (r.span.start, r.start)
  let (last, stop) := if r.span.stop < t.span.stop then (t.span.stop, t.stop)
    else (r.span.stop, r.stop)
  ⟨⟨first, last⟩, start, stop⟩

/-- Whether the range covers no byte. -/
def isEmpty (r : SourceRange) : Bool := r.span.isEmpty

/-- The range in the form `line:column-line:column`. -/
def text (r : SourceRange) : String := r.start.text ++ "-" ++ r.stop.text

@[simp] theorem merge_span (r t : SourceRange) : (r.merge t).span = r.span.merge t.span := by
  simp only [merge, Span.merge]
  split <;> split <;> simp <;> omega

end SourceRange

end Precedence
