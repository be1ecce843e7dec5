import Precedence.Lexer.Literal

/-!
What an identifier is. The policy says which characters start one, and how far one reaches.
-/
namespace Precedence

/-- A policy for identifiers. -/
inductive NamePolicy where
  /-- A letter or `_`, and then letters, numbers and `_`. -/
  | standard
  /-- A character of one class, and then characters of another. -/
  | classes (isStart isPart : Char → Bool)
  /-- A policy of the user's own, which may read on from the cursor as far as it likes. -/
  | custom (isStart : Char → Bool) (read : Cursor → Reading)

namespace NamePolicy

/-- Whether an identifier can start with a character. -/
def isStart : NamePolicy → Char → Bool
  | .standard, c => Text.isAlphabetic c || c == '_'
  | .classes isStart _, c => isStart c
  | .custom isStart _, c => isStart c

/-- How far the identifier at a cursor reaches by the policy, which may be no character at all. -/
def extent (c : Cursor) : NamePolicy → Reading
  | .standard => ⟨c.countWhile LiteralRule.isWordPart, []⟩
  | .classes _ isPart => ⟨1 + ((c.rest.drop 1).takeWhile isPart).length, []⟩
  | .custom _ read => read c

/-- What an identifier reads at a cursor where one starts: at least one character. -/
def read (p : NamePolicy) (c : Cursor) : Reading :=
  let extent := p.extent c
  ⟨max extent.width 1, extent.messages⟩

end NamePolicy

end Precedence
