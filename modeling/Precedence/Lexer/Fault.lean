import Precedence.Diagnostic.Message
import Precedence.Text.Quoted
import Precedence.Text.Radix

/-!
What the lexer finds wrong with a source by itself. Each fault has one code and one wording.
-/
namespace Precedence

/-- Something that is wrong with a source on the level of characters. -/
inductive LexicalFault where
  | invalidCharacter (c : Char)
  | unterminatedString
  | unterminatedComment
  | noDigits (radix : Radix)
deriving DecidableEq

namespace LexicalFault

/-- The code of a fault. -/
def code : LexicalFault → ErrorCode
  | .invalidCharacter _ => .invalidCharacter
  | .unterminatedString => .unterminatedString
  | .unterminatedComment => .unterminatedComment
  | .noDigits _ => .invalidNumber

/-- The wording of a fault. -/
def text : LexicalFault → String
  | .invalidCharacter c => "invalid character " ++ Text.quotedSingle c
  | .unterminatedString => "unterminated string literal"
  | .unterminatedComment => "unterminated block comment"
  | .noDigits radix => radix.adjective ++ " literal has no digits"

/-- The message about a fault at a range. -/
def message (f : LexicalFault) (range : SourceRange) : Message := ⟨f.code, .error, f.text, range⟩

end LexicalFault

end Precedence
