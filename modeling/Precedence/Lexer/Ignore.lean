import Precedence.Lexer.Cursor
import Precedence.Lexer.Fault
import Precedence.Lexer.Delimited
import Precedence.Text.Blank

/-!
What is skipped between tokens. A rule says how many characters it skips at a cursor, if it applies
there at all; a rule that applies without skipping anything is passed over.
-/
namespace Precedence

/-- What a rule reads: a number of characters, and messages about them. -/
structure Reading where
  width : Nat
  messages : List Message
deriving DecidableEq, Inhabited

/-- A rule for input that makes no token. -/
inductive IgnoreRule where
  /-- White space of every kind, line breaks included. -/
  | blanks
  /-- One occurrence of a text. -/
  | fixed (text : List Char)
  /-- A run of characters that satisfy a test. -/
  | run (test : Char → Bool)
  /-- From an opening up to the line break, which is left. -/
  | lineComment (opening : List Char)
  /-- From an opening to the first closing after it, over lines and without nesting. -/
  | blockComment (opening closing : List Char)
  /-- A rule of the user's own, which may read on from the cursor as far as it likes. -/
  | custom (read? : Cursor → Option Reading)

namespace IgnoreRule

/-- Whether a line goes on with a character. -/
def isWithinLine (c : Char) : Bool := c != '\n' && c != '\r'

/-- What a block comment skips, whose opening is known to stand at the cursor. A comment that is
never closed is reported from its opening to the end of the input. -/
def readBlockComment (opening closing : List Char) (c : Cursor) : Reading :=
  let content := Delimited.scan closing none 0 (c.rest.drop opening.length)
  let width := opening.length + content.width closing
  ⟨width,
    if content.closed then []
    else [LexicalFault.unterminatedComment.message (c.rangeTo (c.advanceBy width))]⟩

/-- What a rule skips at a cursor, if it applies there. An empty text or opening never applies. -/
def read? (c : Cursor) : IgnoreRule → Option Reading
  | .blanks => if Text.isBlank c.current then some ⟨c.countWhile Text.isBlank, []⟩ else none
  | .fixed text =>
    if text ≠ [] ∧ c.startsWith text then some ⟨text.length, []⟩ else none
  | .run test => if test c.current then some ⟨c.countWhile test, []⟩ else none
  | .lineComment opening =>
    if opening ≠ [] ∧ c.startsWith opening then
      let body := (c.rest.drop opening.length).takeWhile isWithinLine
      some ⟨opening.length + body.length, []⟩
    else none
  | .blockComment opening closing =>
    if opening ≠ [] ∧ c.startsWith opening then some (readBlockComment opening closing c)
    else none
  | .custom read? => read? c

/-- What the first of the rules that skips anything skips, with the messages of those before it. -/
def readFirst (c : Cursor) : List IgnoreRule → Reading
  | [] => ⟨0, []⟩
  | rule :: rules =>
    match rule.read? c with
    | none => readFirst c rules
    | some reading =>
      if reading.width = 0 then
        let later := readFirst c rules
        ⟨later.width, reading.messages ++ later.messages⟩
      else reading

end IgnoreRule

end Precedence
