/-!
The codes of diagnostics. The first digit tells the phase: `0` for the lexer, `1` for the parser,
`9` for messages that a grammar reports on its own account.
-/
namespace Precedence

/-- What a diagnostic is about. -/
inductive ErrorCode where
  | invalidCharacter
  | unterminatedString
  | invalidNumber
  | unterminatedComment
  | invalidEscape
  | unexpectedToken
  | noPrefix
  | noInfix
  | unterminatedSequence
  | invalidParameter
  | trailingInput
  | grammarMessage
deriving DecidableEq, Inhabited

namespace ErrorCode

/-- Every code, in the order of their labels. -/
def all : List ErrorCode :=
  [.invalidCharacter, .unterminatedString, .invalidNumber, .unterminatedComment, .invalidEscape,
    .unexpectedToken, .noPrefix, .noInfix, .unterminatedSequence, .invalidParameter,
    .trailingInput, .grammarMessage]

/-- The code in writing. -/
def label : ErrorCode → String
  | .invalidCharacter => "E0001"
  | .unterminatedString => "E0002"
  | .invalidNumber => "E0003"
  | .unterminatedComment => "E0004"
  | .invalidEscape => "E0005"
  | .unexpectedToken => "E1001"
  | .noPrefix => "E1002"
  | .noInfix => "E1003"
  | .unterminatedSequence => "E1004"
  | .invalidParameter => "E1005"
  | .trailingInput => "E1006"
  | .grammarMessage => "E9000"

/-- Whether the lexer reports the code. -/
def isLexical (c : ErrorCode) : Bool := "E0".toList.isPrefixOf c.label.toList

/-- Whether the parser reports the code. -/
def isSyntactic (c : ErrorCode) : Bool := "E1".toList.isPrefixOf c.label.toList

/-- The code with a label, up to the case of its letter. Only `e` becomes `E` in upper case, so the
letters outside of ASCII need no attention. -/
def ofLabel? (label : String) : Option ErrorCode :=
  all.find? fun c => c.label.toList == label.toList.map Char.toUpper

/-- The wording for a label that names no code. -/
def unknownLabelMessage (label : String) : String := "unknown error code `" ++ label ++ "`"

theorem ofLabel?_label (c : ErrorCode) : ofLabel? c.label = some c := by cases c <;> decide

end ErrorCode

end Precedence
