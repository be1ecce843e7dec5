import Precedence.Lexer.Ignore
import Precedence.Lexer.Number
import Precedence.Text.Alphabetic
import Precedence.Text.Case

/-!
How literals are recognised. A rule builds the whole token at a cursor, if it applies there; what
the literal stands for is settled later, from the token's text.
-/
namespace Precedence

/-- What a rule for literals reads: a token, its width in characters, and messages about it. -/
structure LiteralReading where
  token : Token
  width : Nat
  messages : List Message
deriving DecidableEq, Inhabited

/-- A rule for literals. -/
inductive LiteralRule where
  | number (format : NumberFormat)
  /-- Strings between delimiters, in which an escape character keeps the next one from closing. -/
  | string (opening closing : List Char) (escape : Option Char)
  /-- The words `true` and `false`. -/
  | boolean (ignoreCase : Bool)
  /-- A rule of the user's own, which may read on from the cursor as far as it likes. -/
  | custom (read? : Cursor → Option LiteralReading)

namespace LiteralRule

/-- Whether a character goes on with a word, in the sense that keeps `trueish` from being a truth
value. -/
def isWordPart (c : Char) : Bool := Text.isAlphanumeric c || c == '_'

/-- The number literal at a cursor, which is known to start there. -/
def readNumber (format : NumberFormat) (c : Cursor) : LiteralReading :=
  let extent := format.extent c.rest
  let stop := c.advanceBy extent.width
  ⟨c.tokenTo stop .number, extent.width,
    match extent.missing with
    | none => []
    | some radix => [(LexicalFault.noDigits radix).message (c.rangeTo stop)]⟩

/-- The string literal at a cursor, whose opening is known to stand there. Its text is the content
between the delimiters, and a string that is never closed goes on to the end of the input. -/
def readString (opening closing : List Char) (escape : Option Char) (c : Cursor) :
    LiteralReading :=
  let contentStart := c.advanceBy opening.length
  let content := Delimited.scan closing escape 0 contentStart.rest
  let contentStop := contentStart.advanceBy content.length
  let width := opening.length + content.width closing
  let stop := c.advanceBy width
  ⟨⟨.string, c.rangeTo stop, ⟨contentStart.offset, contentStop.offset⟩⟩, width,
    if content.closed then []
    else [LexicalFault.unterminatedString.message (c.rangeTo stop)]⟩

/-- Whether a word stands at a cursor and ends there. -/
def isWordAt (ignoreCase : Bool) (c : Cursor) (word : List Char) : Bool :=
  (if ignoreCase then Text.startsWithUpToCase word c.rest else c.startsWith word)
    && !isWordPart (c.peek word.length)

/-- The truth value at a cursor, if one stands there. -/
def readBoolean? (ignoreCase : Bool) (c : Cursor) : Option LiteralReading :=
  (["true".toList, "false".toList].find? (isWordAt ignoreCase c)).map fun word =>
    ⟨c.tokenTo (c.advanceBy word.length) .boolean, word.length, []⟩

/-- What a rule reads at a cursor, if it applies there. An empty opening never applies. -/
def read? (c : Cursor) : LiteralRule → Option LiteralReading
  | .number format => if format.starts c.rest then some (readNumber format c) else none
  | .string opening closing escape =>
    if opening ≠ [] ∧ c.startsWith opening then some (readString opening closing escape c)
    else none
  | .boolean ignoreCase => readBoolean? ignoreCase c
  | .custom read? => read? c

/-- What the first of the rules that reads anything reads, if there is one, behind the messages of
those that applied before it without reading anything. -/
def readFirst (c : Cursor) : List LiteralRule → List Message × Option LiteralReading
  | [] => ([], none)
  | rule :: rules =>
    match rule.read? c with
    | none => readFirst c rules
    | some reading =>
      if reading.width = 0 then
        let (messages, found) := readFirst c rules
        (reading.messages ++ messages, found)
      else ([], some reading)

end LiteralRule

end Precedence
