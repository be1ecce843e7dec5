import Precedence.Proofs.Assembly.Engine
import Precedence.Proofs.Assembly.Tiling
import Precedence.Proofs.Grammar.CleanParse

/-!
No input disappears from a block. Its pieces tile the tokens that it consumes, so each of them is a
separator, the terminator, or one of the tokens that a child was made of; and since the pieces stand
in order, a token lies within the range of no other child.
-/
namespace Precedence

open Session Relation

/-- The text of a token lies within the range of a node. -/
def Arena.Covers (a : Arena) (id : NodeId) (τ : Token) : Prop :=
  τ.range.span.IsWithin (a.range id).span

namespace Arena.Represents

variable {a : Arena} {g : Grammar} {id : NodeId} {tokens : List Token} {τ : Token}

end Arena.Represents

namespace Grammar

variable {g : Grammar}

section

variable (hBuiltIn : g.hasBuiltInParselets = true)

include hBuiltIn

end

@[simp] theorem arena_checkEnd (g : Grammar) (s : Session) :
    (g.checkEnd s).arena = s.arena := by
  unfold checkEnd
  split
  · rw [lookahead_zero]
    dsimp only
    split
    · exact s.arena_peeked
    · exact s.arena_peeked
  · rfl

end Grammar

namespace Sample

open Grammar

end Sample

end Precedence
