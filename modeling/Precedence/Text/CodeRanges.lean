/-!
Sets of code points, written as closed ranges in increasing order. The order is what lets a test
stop early; it is not enforced, and a table that breaks it merely has fewer members.
-/
namespace Precedence.Text

/-- A set of code points as closed ranges, in increasing order and without overlap. -/
abbrev CodeRanges := List (Nat × Nat)

/-- Whether some range holds `n`, looking no further than the first range that starts after it. -/
def CodeRanges.contains : CodeRanges → Nat → Bool
  | [], _ => false
  | (first, last) :: rest, n =>
    if n < first then false else n ≤ last || CodeRanges.contains rest n

end Precedence.Text
