import Precedence.Text.Visible

/-!
Quoted text, for messages and dumps. Between the quotation marks a character stands for itself if
it is visible; the mark, the backslash, the tab, the line breaks and NUL have short escapes, and
every other character is written by its code point in hexadecimal.
-/
namespace Precedence.Text

/-- The code point of a character as an escape, such as `\u{301}`: lower case, without padding. -/
def codePointEscape (c : Char) : List Char :=
  "\\u\x7b".toList ++ Nat.toDigits 16 c.toNat ++ "\x7d".toList

/-- How one character is written between two of `mark`. -/
def quotedChar (mark c : Char) : List Char :=
  if c = '\x00' then ['\\', '0']
  else if c = '\t' then ['\\', 't']
  else if c = '\r' then ['\\', 'r']
  else if c = '\n' then ['\\', 'n']
  else if c = '\\' ∨ c = mark then ['\\', c]
  else if isVisible c then [c]
  else codePointEscape c

/-- The text between two of `mark`. -/
def quotedWith (mark : Char) (cs : List Char) : String :=
  String.ofList (mark :: (cs.flatMap (quotedChar mark) ++ [mark]))

/-- A text between double quotation marks. -/
def quoted (s : String) : String := quotedWith '"' s.toList

/-- A character between single quotation marks. -/
def quotedSingle (c : Char) : String := quotedWith '\'' [c]

/-- Texts in brackets, each between double quotation marks. -/
def quotedList (texts : List String) : String :=
  "[" ++ ", ".intercalate (texts.map quoted) ++ "]"

end Precedence.Text
