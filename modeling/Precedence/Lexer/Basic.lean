import Precedence.Diagnostic.Document
import Precedence.Lexer.Lexicon

/-!
The lexer as a machine that is moved by hand: over characters, or from token to token. Its first
token is the start of the input at the place where it stands then; behind everything it finds the
end of the input as often as it is asked. Iterating it stops at the first end of the input and
steps over the characters that invalid tokens leave unread, so a run of the iteration from the start
of a source is the list `Lexicon.stream`.
-/
namespace Precedence

/-- A lexer at work. It has `started` when its first token was asked for, and `finished` when
iterating it yielded the end of the input. -/
structure Lexer where
  lexicon : Lexicon
  cursor : Cursor
  started : Bool
  finished : Bool
  diagnostics : Diagnostics

namespace Lexer

/-- A lexer at the start of a source. -/
def ofSource (lx : Lexicon) (source : List Char) : Lexer :=
  ⟨lx, .ofSource source, false, false, .empty⟩

instance : Inhabited Lexer := ⟨ofSource .empty []⟩

/-! ### Over characters -/

/-- The lexer after one more character, and that character unless the input has ended. -/
def advance (l : Lexer) : Option Char × Lexer :=
  (l.cursor.rest.head?, { l with cursor := l.cursor.advance })

/-- The lexer after `n` more characters, or at the end if there are fewer. -/
def advanceBy (l : Lexer) (n : Nat) : Lexer := { l with cursor := l.cursor.advanceBy n }

/-- The lexer after all characters in a row that satisfy a test, and their number. -/
def advanceWhile (l : Lexer) (test : Char → Bool) : Nat × Lexer :=
  (l.cursor.countWhile test, l.advanceBy (l.cursor.countWhile test))

/-- The lexer after a text, if that is what comes next. -/
def advanceIf (l : Lexer) (text : List Char) : Bool × Lexer :=
  if l.cursor.startsWith text then (true, l.advanceBy text.length) else (false, l)

/-- The lexer after the character that an invalid token was made of. -/
def skipInvalid (l : Lexer) : Lexer := l.advance.2

/-- The lexer with an error reported at a range. -/
def report (l : Lexer) (code : ErrorCode) (text : String) (range : SourceRange) :
    MessageId × Lexer :=
  let (id, diagnostics) := l.diagnostics.push ⟨code, .error, text, range⟩
  (id, { l with diagnostics })

/-! ### Over tokens -/

/-- The next token. The character of an invalid token is left unread. -/
def next (l : Lexer) : Token × Lexer :=
  if l.started then
    let (lexeme, cursor) := l.lexicon.next l.cursor
    (lexeme.token, { l with cursor, diagnostics := l.diagnostics.append lexeme.messages })
  else (l.cursor.emptyToken .sof, { l with started := true })

/-- The next token of the iteration, if the end of the input has not been yielded yet. The character
of an invalid token is stepped over. -/
def yield? (l : Lexer) : Option Token × Lexer :=
  if l.finished then (none, l)
  else
    let (token, l) := l.next
    let l := if token.symbol = .invalid then l.skipInvalid else l
    (some token, { l with finished := token.symbol == .eof })

end Lexer

/-- The tokens up to the first end of the input, that one included. -/
def Lexeme.upToEnd : List Lexeme → List Lexeme
  | [] => []
  | lexeme :: rest => if lexeme.token.symbol = .eof then [lexeme] else lexeme :: upToEnd rest

/-- What iterating a lexer yields from the start of a source on: the start of the input, and then
every token up to an end of the input. -/
def Lexicon.stream (lx : Lexicon) (source : List Char) : List Lexeme :=
  Lexeme.upToEnd (⟨.empty .sof 0 .origin, []⟩ :: lx.lexemes source)

end Precedence
