import Precedence.Text.CodeRanges

/-!
White space as the Unicode character database draws it. It holds line breaks of every kind and the
no-break spaces, and it holds no zero-width character.
-/
namespace Precedence.Text

/-- The code points that have the White_Space property. -/
def blankRanges : CodeRanges :=
  [(0x9, 0xD), (0x20, 0x20), (0x85, 0x85), (0xA0, 0xA0), (0x1680, 0x1680), (0x2000, 0x200A),
   (0x2028, 0x2029), (0x202F, 0x202F), (0x205F, 0x205F), (0x3000, 0x3000)]

/-- Whether a character has the White_Space property. -/
def isBlank (c : Char) : Bool := blankRanges.contains c.toNat

theorem isBlank_space : isBlank ' ' = true := by decide

end Precedence.Text
